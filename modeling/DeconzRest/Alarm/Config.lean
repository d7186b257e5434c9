import DeconzRest.Alarm.System
import DeconzRest.Json.Parse
import DeconzRest.Resource.Descriptors
import DeconzRest.Rest.Error

/-!
# `PUT /alarmsystems/<id>/config`

`putAlarmSystemConfig` walks over the entries of the body in the order of their
keys.  The key `code0` sets the PIN code; every other key is resolved by the
suffix match of `getResourceItemDescriptor`, refused when it names one of the
two read-only items, and otherwise written as it is.  The first refused entry
answers the request, with the entries before it written.

The handler is meant for the code and for the delays.  The items that it has no
business with are `AlarmItem.isProtected`; `ConfigFrame` says that a request
kept them and told nobody that they changed.  Nothing in the handler looks for
them, so what protects them is the body: `KeepsProtected`.
-/

namespace DeconzRest

namespace AlarmItem

/-- The items that a configuration request is not meant to change: everything
but the delays, the trigger durations and `config/configured`. -/
def isProtected (i : AlarmItem) : Bool := !i.isDelay && i ≠ .configured

theorem ofSuffix?_suffix (i : AlarmItem) : ofSuffix? i.suffix = some i := by
  cases i <;> decide

theorem suffix_injective : Function.Injective suffix := by
  intro i j h
  have hi := ofSuffix?_suffix i
  rw [h, ofSuffix?_suffix j] at hi
  exact (Option.some.inj hi).symm

end AlarmItem

/-- What the handler finds outside of the alarm systems: Qt, `std::atoi`, the
descriptor table, and the secret that `CRYPTO_ScryptPassword` and
`DB_StoreSecret` make of a unique id and a code, `none` when either fails. -/
structure ConfigEnv (D S : Type) where
  qt : Qt D
  atoi : QString → Int
  descriptors : List String
  storeSecret : QString → QString → Option S

structure AlarmStore (S : Type) where
  alarmSystems : List AlarmSystem
  secrets : QString → Option S

/-- The parts of `ApiRequest` that the handler reads: `hdr.pathAt(3)` and the
content. -/
structure ConfigRequest where
  id : QString
  content : QString

structure ConfigState (D S : Type) where
  as : AlarmSystem
  secrets : QString → Option S
  rsp : ApiResponse D

namespace AlarmConfig

variable {D S : Type}

/-- `isValidAlaramSystemId` -/
def isValidAlaramSystemId (id : QString) : Bool :=
  decide (id ≠ []) && id.all fun c => decide (0x30 ≤ c.toNat ∧ c.toNat ≤ 0x39)

/-- `alarmSystemIdToInteger`; the default is `INT_MAX`. -/
def alarmSystemIdToInteger (env : ConfigEnv D S) (id : QString) : Int :=
  if isValidAlaramSystemId id then env.atoi id else 2147483647

/-- `AS_GetAlarmSystem`, as a position in the list; the argument is converted to
an unsigned 32-bit number. -/
def getAlarmSystem (alarmSystemId : Int) (alarmSystems : List AlarmSystem) : Option Nat :=
  alarmSystems.findIdx? fun as => decide (as.id = alarmSystemId % 2 ^ 32)

def fmtAsId : QString := QString.ofLatin1 "/alarmsystems/%1"
def fmtAsIdParam : QString := QString.ofLatin1 "/alarmsystems/%1/%2"

def errAlarmSystemNotAvailable (qt : Qt D) (id : QString) : QVariant D :=
  errorToMap qt errResourceNotAvailable (QString.arg fmtAsId id)
    (QString.arg (QString.ofLatin1 "resource, /alarmsystems/%1, not available") id)

def errBodyContainsInvalidJson (qt : Qt D) (id : Int) : QVariant D :=
  errorToMap qt errInvalidJson (QString.arg fmtAsId (QString.number id))
    (QString.ofLatin1 "body contains invalid JSON")

def errInternal (qt : Qt D) (id : Int) (reason : QString) : QVariant D :=
  errorToMap qt errInternalError (QString.arg fmtAsId (QString.number id))
    (QString.arg (QString.ofLatin1 "internal error, %1, occured") reason)

/-- `errInvalidValue`: the description names the parameter behind the slash, the
address the whole suffix unless it starts with `at`. -/
def errInvalid (qt : Qt D) (id : Int) (suffix value : QString) : QVariant D :=
  match suffix.dropWhile fun c => decide (c ≠ QString.unit '/') with
  | [] => .map []
  | _ :: param =>
    let address := if QString.ofLatin1 "at" <+: suffix then param else suffix
    errorToMap qt errInvalidValue
      (QString.arg (QString.arg fmtAsIdParam (QString.number id)) address)
      (QString.arg
        (QString.arg (QString.ofLatin1 "invalid value, %1, for parameter, %2") value) param)

def errParameter (qt : Qt D) (id : Int) (param : QString) : QVariant D :=
  errorToMap qt errParameterNotAvailable
    (QString.arg (QString.arg fmtAsIdParam (QString.number id)) param)
    (QString.arg (QString.ofLatin1 "parameter, %1, not available") param)

def addSuccessEntry (id : Int) (suffix : QString) (value : QVariant D) : QVariant D :=
  .map [(QString.ofLatin1 "success",
    .map [(QString.arg (QString.arg fmtAsIdParam (QString.number id)) suffix, value)])]

/-- `Resource::setValue(suffix, qint64)`, with `AlarmSystem::didSetValue`. -/
def setNumberValue (as : AlarmSystem) (i : AlarmItem) (val : Int) : AlarmSystem × Bool :=
  if as.number i ≠ val then
    let r := ResourceItem.setNumber i.descriptor (as.items i) val
    if r.2 then ((as.setItem i r.1).emitItem i, true) else (as, false)
  else
    (as, false)

def codeUniqueId (id index : Int) : QString :=
  QString.arg (QString.arg (QString.ofLatin1 "as_%1_code%2") (QString.number id))
    (QString.number index)

/-- `AlarmSystem::setCode`: the alarm system, the secrets and the result. -/
def setCode (env : ConfigEnv D S) (as : AlarmSystem) (secrets : QString → Option S)
    (index : Int) (code : QString) : AlarmSystem × (QString → Option S) × Bool :=
  if code = [] then
    (as, secrets, false)
  else
    let uniqueId := codeUniqueId as.id index
    match env.storeSecret uniqueId code with
    | some secret =>
      ((setNumberValue as .configured 1).1, Function.update secrets uniqueId (some secret), true)
    | none => (as, secrets, false)

/-- `Resource::setValue(suffix, QVariant)` of the alarm system. -/
def setValue (qt : Qt D) (as : AlarmSystem) (suffix : String) (val : QVariant D) :
    AlarmSystem × Bool :=
  match AlarmItem.ofSuffix? suffix with
  | some i => as.setVariant qt i val
  | none => (as, false)

/-- The array `readOnly` of the handler. -/
def readOnly : List String := [rConfigArmMode, AlarmItem.configured.suffix]

def putEntry (env : ConfigEnv D S) (id : Int) (s : ConfigState D S)
    (entry : QString × QVariant D) : ConfigState D S × Bool :=
  let key := entry.1
  let val := entry.2
  if key = QString.ofLatin1 "code0" then
    let code0 := val.toString env.qt
    if code0.length < 4 ∨ 16 < code0.length then
      ({ s with
          rsp := s.rsp.answer
            (errInvalid env.qt id (QString.ofLatin1 "config/code0") code0)
            httpStatusBadRequest }, false)
    else
      let r := setCode env s.as s.secrets 0 code0
      if r.2.2 then
        ({ as := r.1
           secrets := r.2.1
           rsp := s.rsp.answer
             (addSuccessEntry id (QString.ofLatin1 AlarmItem.configured.suffix) (.bool true))
             httpStatusOk }, true)
      else
        ({ as := r.1
           secrets := r.2.1
           rsp := s.rsp.answer
             (errInternal env.qt id (QString.ofLatin1 "failed to set code"))
             httpStatusServiceUnavailable }, false)
  else
    match getResourceItemDescriptor env.descriptors
        (QString.arg (QString.ofLatin1 "config/%1") key) with
    | none =>
      ({ s with rsp := s.rsp.answer (errParameter env.qt id key) httpStatusNotFound }, false)
    | some suffix =>
      if suffix ∈ readOnly then
        ({ s with rsp := s.rsp.answer (errParameter env.qt id key) httpStatusNotFound }, false)
      else
        let r := setValue env.qt s.as suffix val
        if r.2 then
          ({ s with
              as := r.1
              rsp := s.rsp.answer (addSuccessEntry id (QString.ofLatin1 suffix) val)
                httpStatusOk }, true)
        else
          ({ s with
              as := r.1
              rsp := s.rsp.answer
                (errInvalid env.qt id (QString.ofLatin1 suffix) (val.toString env.qt))
                httpStatusServiceUnavailable }, false)

def putEntries (env : ConfigEnv D S) (id : Int) :
    List (QString × QVariant D) → ConfigState D S → ConfigState D S
  | [], s => s
  | entry :: rest, s =>
    let r := putEntry env id s entry
    if r.2 then putEntries env id rest r.1 else r.1

def bodyEntries (qt : Qt D) (content : QString) : Option (List (QString × QVariant D)) :=
  let r := Json.parse qt content
  if r.2 = false ∨ r.1.toMap = [] then none else some r.1.toMap

/-- `putAlarmSystemConfig` -/
def putAlarmSystemConfig (env : ConfigEnv D S) (req : ConfigRequest) (st : AlarmStore S) :
    AlarmStore S × ApiResponse D :=
  let id := alarmSystemIdToInteger env req.id
  match getAlarmSystem id st.alarmSystems with
  | none =>
    (st, ApiResponse.answer {} (errAlarmSystemNotAvailable env.qt req.id) httpStatusNotFound)
  | some n =>
    match st.alarmSystems[n]?, bodyEntries env.qt req.content with
    | some as, some entries =>
      let s := putEntries env id entries { as := as, secrets := st.secrets, rsp := {} }
      ({ alarmSystems := st.alarmSystems.set n s.as, secrets := s.secrets }, s.rsp)
    | _, _ =>
      (st, ApiResponse.answer {} (errBodyContainsInvalidJson env.qt id) httpStatusBadRequest)

/-! ## What one write leaves alone -/

end AlarmConfig

namespace AlarmSystem

def eventsOf (as : AlarmSystem) (i : AlarmItem) : List Event :=
  as.emitted.filter fun e => decide (e.what = i.suffix)

/-- Two alarm systems agree in all that a configuration request has to keep: the
state machine, every protected item, and what was told about it. -/
structure ConfigFrame (as as' : AlarmSystem) : Prop where
  control : as'.toAlarmSystemPrivate = as.toAlarmSystemPrivate
  items : ∀ i, i.isProtected = true → as'.items i = as.items i
  events : ∀ i, i.isProtected = true → as'.eventsOf i = as.eventsOf i

namespace ConfigFrame

theorem refl (as : AlarmSystem) : ConfigFrame as as :=
  ⟨rfl, fun _ _ => rfl, fun _ _ => rfl⟩

theorem symm {as as' : AlarmSystem} (h : ConfigFrame as as') : ConfigFrame as' as :=
  ⟨h.control.symm, fun i hi => (h.items i hi).symm, fun i hi => (h.events i hi).symm⟩

theorem trans {as as' as'' : AlarmSystem} (h : ConfigFrame as as') (h' : ConfigFrame as' as'') :
    ConfigFrame as as'' :=
  ⟨h'.control.trans h.control, fun i hi => (h'.items i hi).trans (h.items i hi),
    fun i hi => (h'.events i hi).trans (h.events i hi)⟩

end ConfigFrame

def write (as : AlarmSystem) (i : AlarmItem) (it : ResourceItem) : AlarmSystem :=
  (as.setItem i it).emitItem i

variable (as : AlarmSystem)

@[simp] theorem write_items (i : AlarmItem) (it : ResourceItem) :
    (as.write i it).items = Function.update as.items i it := rfl

theorem write_eventsOf (i j : AlarmItem) (it : ResourceItem) :
    ∃ e, (as.write i it).eventsOf j = as.eventsOf j ++ if i = j then [e] else [] := by
  obtain ⟨e, hwhat, hemitted⟩ : ∃ e : Event, e.what = i.suffix ∧ (as.write i it).emitted =
      as.emitted ++ [e] := ⟨_, rfl, rfl⟩
  refine ⟨e, ?_⟩
  unfold eventsOf
  rw [hemitted, List.filter_append]
  congr 1
  by_cases hij : i = j
  · rw [if_pos hij]
    exact List.filter_cons_of_pos (by rw [hwhat, hij]; simp)
  · have hsuffix : i.suffix ≠ j.suffix := fun h => hij (AlarmItem.suffix_injective h)
    rw [if_neg hij]
    exact List.filter_cons_of_neg (by rw [hwhat]; simpa using hsuffix)

theorem write_frame {i : AlarmItem} (it : ResourceItem) (hi : i.isProtected = false) :
    ConfigFrame as (as.write i it) := by
  have hne : ∀ j : AlarmItem, j.isProtected = true → j ≠ i := by
    intro j hj heq
    rw [heq, hi] at hj
    exact absurd hj (by decide)
  refine ⟨rfl, ?_, ?_⟩
  · intro j hj
    exact Function.update_of_ne (hne j hj) _ _
  · intro j hj
    obtain ⟨e, he⟩ := write_eventsOf as i j it
    rw [he, if_neg (hne j hj).symm, List.append_nil]

end AlarmSystem

namespace AlarmConfig

open AlarmSystem

/-- The item that a key of a body writes, if it passes both look-ups and the
check for read-only items. -/
def target (table : List String) (key : QString) : Option AlarmItem :=
  match getResourceItemDescriptor table (QString.arg (QString.ofLatin1 "config/%1") key) with
  | some suffix => if suffix ∈ readOnly then none else AlarmItem.ofSuffix? suffix
  | none => none

/-- The item takes the value: it differs from the present one and has the type
and range of the item. -/
def accepts (qt : Qt D) (i : AlarmItem) (it : ResourceItem) (val : QVariant D) : Bool :=
  !qt.eqv (ResourceItem.toVariant qt i.descriptor it) val &&
    (ResourceItem.setVariant qt i.descriptor it val).2

/-- The identifier of the alarm system, read from its items. -/
def itemsId (items : AlarmItem → ResourceItem) : Int := (items .alarmSystemId).num % 2 ^ 32

/-- The secret that a value of `code0` becomes, `none` where the length or the
database refuses it. -/
def storedCode (env : ConfigEnv D S) (id : Int) (val : QVariant D) : Option S :=
  let code0 := val.toString env.qt
  if 4 ≤ code0.length ∧ code0.length ≤ 16 then
    env.storeSecret (codeUniqueId id 0) code0
  else
    none

/-- The items after an entry, `none` when the entry is refused.  A code leaves
`config/configured` set; any other key writes the item it names. -/
def writeEntry (env : ConfigEnv D S) (items : AlarmItem → ResourceItem)
    (entry : QString × QVariant D) : Option (AlarmItem → ResourceItem) :=
  if entry.1 = QString.ofLatin1 "code0" then
    if (storedCode env (itemsId items) entry.2).isSome then
      if (items .configured).num = 1 then
        some items
      else
        some (Function.update items .configured
          (ResourceItem.setNumber AlarmItem.configured.descriptor (items .configured) 1).1)
    else
      none
  else
    match target env.descriptors entry.1 with
    | some i =>
      if accepts env.qt i (items i) entry.2 then
        some (Function.update items i
          (ResourceItem.setVariant env.qt i.descriptor (items i) entry.2).1)
      else
        none
    | none => none

def TargetsProtected (env : ConfigEnv D S) (key : QString) : Prop :=
  key ≠ QString.ofLatin1 "code0" ∧ ∃ i, target env.descriptors key = some i ∧ i.isProtected = true

/-- No entry that the loop comes to, and that is accepted there, names a
protected item. -/
def KeepsProtected (env : ConfigEnv D S) :
    (AlarmItem → ResourceItem) → List (QString × QVariant D) → Prop
  | _, [] => True
  | items, entry :: rest =>
    ∀ items', writeEntry env items entry = some items' → ¬ TargetsProtected env entry.1 ∧
      KeepsProtected env items' rest

theorem setVariant_eq (qt : Qt D) (as : AlarmSystem) (i : AlarmItem) (val : QVariant D) :
    as.setVariant qt i val =
      if accepts qt i (as.items i) val then
        (as.write i (ResourceItem.setVariant qt i.descriptor (as.items i) val).1, true)
      else
        (as, false) := by
  unfold setVariant accepts
  by_cases heqv : qt.eqv (ResourceItem.toVariant qt i.descriptor (as.items i)) val = true
  · rw [if_pos heqv, heqv]
    rfl
  · rw [if_neg heqv, Bool.eq_false_iff.mpr heqv]
    cases hset : (ResourceItem.setVariant qt i.descriptor (as.items i) val).2 with
    | true => simp [hset, write]
    | false => simp [hset]

theorem setNumberValue_configured (as : AlarmSystem) :
    (setNumberValue as .configured 1).1 = if (as.items .configured).num =
      1 then
        as
      else
        as.write .configured
          (ResourceItem.setNumber AlarmItem.configured.descriptor (as.items .configured) 1).1 := by
  unfold setNumberValue AlarmSystem.number
  by_cases hset : (as.items .configured).num = 1
  · rw [if_pos hset, if_neg (not_not_intro hset)]
  · rw [if_neg hset, if_pos hset]
    rfl

variable (env : ConfigEnv D S)

theorem putEntry_key (id : Int) (s : ConfigState D S) {key : QString} (val : QVariant D)
    (hkey : key ≠ QString.ofLatin1 "code0") :
    (putEntry env id s (key, val)).1.secrets = s.secrets ∧
      ((putEntry env id s (key, val)).1.as, (putEntry env id s (key, val)).2) =
        match target env.descriptors key with
        | some i => s.as.setVariant env.qt i val
        | none => (s.as, false) := by
  unfold putEntry target
  simp only
  rw [if_neg hkey]
  cases getResourceItemDescriptor env.descriptors
      (QString.arg (QString.ofLatin1 "config/%1") key) with
  | none => exact ⟨rfl, rfl⟩
  | some suffix =>
    simp only
    by_cases hread : suffix ∈ readOnly
    · rw [if_pos hread, if_pos hread]
      exact ⟨rfl, rfl⟩
    · rw [if_neg hread, if_neg hread]
      have hset : setValue env.qt s.as suffix val =
          match AlarmItem.ofSuffix? suffix with
          | some i => s.as.setVariant env.qt i val
          | none => (s.as, false) := rfl
      rw [← hset]
      cases hresult : (setValue env.qt s.as suffix val).2 with
      | true => exact ⟨rfl, Prod.ext rfl hresult.symm⟩
      | false => exact ⟨rfl, Prod.ext rfl hresult.symm⟩

theorem putEntry_code0 (env : ConfigEnv D S) (id : Int) (s : ConfigState D S) (val : QVariant D) :
    let r := putEntry env id s (QString.ofLatin1 "code0", val)
    match storedCode env s.as.id val with
    | some secret =>
      r.1.as = (setNumberValue s.as .configured 1).1 ∧ r.1.secrets =
        Function.update s.secrets (codeUniqueId s.as.id 0) (some secret) ∧
        r.2 = true
    | none => r.1.as = s.as ∧ r.1.secrets = s.secrets ∧ r.2 = false := by
  unfold putEntry storedCode
  simp only
  rw [if_pos trivial]
  by_cases hlen : 4 ≤ (val.toString env.qt).length ∧ (val.toString env.qt).length ≤ 16
  · have hshort : ¬ ((val.toString env.qt).length < 4 ∨ 16 < (val.toString env.qt).length) := by
      omega
    have hne : val.toString env.qt ≠ [] := by
      intro hnil
      rw [hnil] at hlen
      exact absurd hlen.1 (by decide)
    rw [if_neg hshort, if_pos hlen]
    cases hstore : env.storeSecret (codeUniqueId s.as.id 0) (val.toString env.qt) with
    | none =>
      have hset : setCode env s.as s.secrets 0 (val.toString env.qt) =
          (s.as, s.secrets, false) := by
        unfold setCode
        rw [if_neg hne]
        simp only [hstore]
      rw [hset]
      exact ⟨rfl, rfl, rfl⟩
    | some secret =>
      have hset : setCode env s.as s.secrets 0 (val.toString env.qt) =
          ((setNumberValue s.as .configured 1).1,
            Function.update s.secrets (codeUniqueId s.as.id 0) (some secret), true) := by
        unfold setCode
        rw [if_neg hne]
        simp only [hstore]
      rw [hset]
      exact ⟨rfl, rfl, rfl⟩
  · have hshort : (val.toString env.qt).length < 4 ∨ 16 < (val.toString env.qt).length := by
      omega
    rw [if_pos hshort, if_neg hlen]
    exact ⟨rfl, rfl, rfl⟩

variable (id : Int) {s : ConfigState D S} {entry : QString × QVariant D}

theorem putEntry_refused {env : ConfigEnv D S} (h : writeEntry env s.as.items entry = none) :
    (putEntry env id s entry).2 = false ∧ (putEntry env id s entry).1.as = s.as ∧
      (putEntry env id s entry).1.secrets = s.secrets := by
  obtain ⟨key, val⟩ := entry
  unfold writeEntry at h
  by_cases hcode : key = QString.ofLatin1 "code0"
  · have hput := putEntry_code0 env id s val
    rw [if_pos hcode] at h
    rw [hcode]
    cases hstored : storedCode env s.as.id val with
    | none =>
      simp only [hstored] at hput
      exact ⟨hput.2.2, hput.1, hput.2.1⟩
    | some secret =>
      have hsome : (storedCode env (itemsId s.as.items) val).isSome = true := by
        show (storedCode env s.as.id val).isSome = true
        rw [hstored]
        rfl
      rw [if_pos hsome] at h
      split_ifs at h
  · obtain ⟨hsecrets, hput⟩ := putEntry_key env id s val hcode
    rw [if_neg hcode] at h
    have hsame : ((putEntry env id s (key, val)).1.as, (putEntry env id s (key, val)).2) =
        (s.as, false) := by
      rw [hput]
      cases htarget : target env.descriptors key with
      | none => rfl
      | some i =>
        simp only [htarget] at h
        have hrefuse : ¬ accepts env.qt i (s.as.items i) val = true := by
          intro haccept
          rw [if_pos haccept] at h
          exact absurd h (Option.some_ne_none _)
        simp only
        rw [setVariant_eq, if_neg hrefuse]
    exact ⟨congrArg Prod.snd hsame, congrArg Prod.fst hsame, hsecrets⟩

theorem putEntry_accepted {env : ConfigEnv D S} {items : AlarmItem → ResourceItem}
    (h : writeEntry env s.as.items entry = some items) :
    (putEntry env id s entry).2 = true ∧ (putEntry env id s entry).1.as.items = items ∧
      ((TargetsProtected env entry.1 ∧ ∃ i it, i.isProtected = true ∧
          (putEntry env id s entry).1.as = s.as.write i it) ∨
        (¬ TargetsProtected env entry.1 ∧ ConfigFrame s.as (putEntry env id s entry).1.as)) := by
  obtain ⟨key, val⟩ := entry
  unfold writeEntry at h
  by_cases hcode : key = QString.ofLatin1 "code0"
  · have hput := putEntry_code0 env id s val
    rw [if_pos hcode] at h
    have hno : ¬ TargetsProtected env key := fun htargets => htargets.1 hcode
    rw [hcode] at hno ⊢
    cases hstored : storedCode env s.as.id val with
    | none =>
      have hnone : ¬ (storedCode env (itemsId s.as.items) val).isSome = true := by
        show ¬ (storedCode env s.as.id val).isSome = true
        rw [hstored]
        exact Bool.false_ne_true
      rw [if_neg hnone] at h
      exact absurd h.symm (Option.some_ne_none _)
    | some secret =>
      simp only [hstored] at hput
      have hsome : (storedCode env (itemsId s.as.items) val).isSome = true := by
        show (storedCode env s.as.id val).isSome = true
        rw [hstored]
        rfl
      rw [if_pos hsome] at h
      rw [hput.1, setNumberValue_configured]
      by_cases hset : (s.as.items .configured).num = 1
      · rw [if_pos hset] at h ⊢
        exact ⟨hput.2.2, Option.some.inj h, .inr ⟨hno, .refl _⟩⟩
      · rw [if_neg hset] at h ⊢
        exact ⟨hput.2.2, Option.some.inj h, .inr ⟨hno, write_frame _ _ rfl⟩⟩
  · obtain ⟨-, hput⟩ := putEntry_key env id s val hcode
    rw [if_neg hcode] at h
    cases htarget : target env.descriptors key with
    | none => simp [htarget] at h
    | some i =>
      simp only [htarget] at h hput
      have haccept : accepts env.qt i (s.as.items i) val = true := by
        by_contra hrefuse
        rw [if_neg hrefuse] at h
        exact absurd h.symm (Option.some_ne_none _)
      rw [if_pos haccept] at h
      rw [setVariant_eq, if_pos haccept] at hput
      obtain ⟨has, hgoes⟩ := Prod.mk.inj hput
      refine ⟨hgoes, ?_, ?_⟩
      · rw [has]
        exact Option.some.inj h
      · cases hprotected : i.isProtected with
        | true => exact .inl ⟨⟨hcode, i, htarget, hprotected⟩, i, _, hprotected, has⟩
        | false =>
          refine .inr ⟨?_, ?_⟩
          · rintro ⟨-, j, hj, hjprotected⟩
            rw [htarget] at hj
            rw [← Option.some.inj hj, hprotected] at hjprotected
            exact absurd hjprotected (by decide)
          · rw [has]
            exact write_frame _ _ hprotected

/-! ## The whole request -/

theorem putEntries_of_refused {env : ConfigEnv D S} (rest : List (QString × QVariant D))
    (h : writeEntry env s.as.items entry = none) :
    (putEntries env id (entry :: rest) s).as = s.as ∧
      (putEntries env id (entry :: rest) s).secrets = s.secrets := by
  obtain ⟨hstop, has, hsecrets⟩ := putEntry_refused id h
  unfold putEntries
  simp only
  rw [hstop, if_neg Bool.false_ne_true]
  exact ⟨has, hsecrets⟩

theorem putEntries_of_accepted {env : ConfigEnv D S} (rest : List (QString × QVariant D))
    {items : AlarmItem → ResourceItem} (h : writeEntry env s.as.items entry = some items) :
    putEntries env id (entry :: rest) s = putEntries env id rest (putEntry env id s entry).1 := by
  conv_lhs => unfold putEntries
  simp only
  rw [(putEntry_accepted id h).1, if_pos rfl]

theorem putEntries_events (id : Int) (entries : List (QString × QVariant D)) (s : ConfigState D S)
    {i : AlarmItem} (hi : i.isProtected = true) :
    s.as.eventsOf i <+: (putEntries env id entries s).as.eventsOf i := by
  induction entries generalizing s with
  | nil => exact List.prefix_refl _
  | cons entry rest ih =>
    cases hwrite : writeEntry env s.as.items entry with
    | none =>
      have hsame := (putEntries_of_refused id rest hwrite).1
      exact hsame.symm ▸ List.prefix_refl _
    | some items =>
      rw [putEntries_of_accepted id rest hwrite]
      refine List.IsPrefix.trans ?_ (ih _)
      obtain ⟨-, -, ⟨-, j, it, -, has⟩ | ⟨-, hframe⟩⟩ := putEntry_accepted id hwrite
      · obtain ⟨e, he⟩ := write_eventsOf s.as j i it
        rw [has, he]
        exact List.prefix_append _ _
      · exact (hframe.events i hi) ▸ List.prefix_refl _

theorem putEntries_frame_iff (id : Int) (entries : List (QString × QVariant D))
    (s : ConfigState D S) :
    ConfigFrame s.as (putEntries env id entries s).as ↔ KeepsProtected env s.as.items entries := by
  induction entries generalizing s with
  | nil => exact ⟨fun _ => trivial, fun _ => .refl _⟩
  | cons entry rest ih =>
    cases hwrite : writeEntry env s.as.items entry with
    | none =>
      rw [(putEntries_of_refused id rest hwrite).1]
      refine ⟨fun _ items hitems => ?_, fun _ => .refl _⟩
      rw [hwrite] at hitems
      exact absurd hitems.symm (Option.some_ne_none _)
    | some items =>
      have hkeeps : KeepsProtected env s.as.items (entry :: rest) ↔ ¬ TargetsProtected env entry.1 ∧
          KeepsProtected env items rest := by
        constructor
        · exact fun h => h items hwrite
        · rintro h items' hitems'
          rw [hwrite] at hitems'
          rw [← Option.some.inj hitems']
          exact h
      rw [putEntries_of_accepted id rest hwrite, hkeeps]
      obtain ⟨-, hitems, ⟨htargets, i, it, hi, has⟩ | ⟨hno, hframe⟩⟩ :=
        putEntry_accepted id hwrite
      · -- the event of this write is still among those at the end
        refine ⟨fun hframe => ?_, fun h => absurd htargets h.1⟩
        have hevents := (putEntries_events env id rest (putEntry env id s entry).1 hi).length_le
        obtain ⟨e, he⟩ := write_eventsOf s.as i i it
        rw [hframe.events i hi, has, he, if_pos rfl, List.length_append,
          List.length_singleton] at hevents
        omega
      · rw [← hitems, ← ih]
        exact ⟨fun h => ⟨hno, hframe.symm.trans h⟩, fun h => hframe.trans h.2⟩

theorem putEntries_secrets (id : Int) (entries : List (QString × QVariant D)) (s : ConfigState D S)
    (h : KeepsProtected env s.as.items entries) {uniqueId : QString}
    (hne : uniqueId ≠ codeUniqueId s.as.id 0) :
    (putEntries env id entries s).secrets uniqueId = s.secrets uniqueId := by
  induction entries generalizing s with
  | nil => rfl
  | cons entry rest ih =>
    cases hwrite : writeEntry env s.as.items entry with
    | none => rw [(putEntries_of_refused id rest hwrite).2]
    | some items =>
      obtain ⟨hno, hrest⟩ := h items hwrite
      obtain ⟨-, hitems, ⟨htargets, -⟩ | ⟨-, hframe⟩⟩ := putEntry_accepted id hwrite
      · exact absurd htargets hno
      · have hid : (putEntry env id s entry).1.as.id = s.as.id := by
          show ((putEntry env id s entry).1.as.items .alarmSystemId).num % 2 ^ 32 = _
          rw [hframe.items .alarmSystemId rfl]
          rfl
        rw [← hitems] at hrest
        rw [← hid] at hne
        rw [putEntries_of_accepted id rest hwrite, ih _ hrest hne]
        obtain ⟨key, val⟩ := entry
        by_cases hcode : key = QString.ofLatin1 "code0"
        · have hput := putEntry_code0 env id s val
          rw [hid] at hne
          rw [hcode]
          cases hstored : storedCode env s.as.id val with
          | none =>
            simp only [hstored] at hput
            rw [hput.2.1]
          | some secret =>
            simp only [hstored] at hput
            rw [hput.2.1, Function.update_of_ne hne]
        · rw [(putEntry_key env id s val hcode).1]

/-- A request keeps what it has no business with: every alarm system but the
addressed one, the frame of that one, and every secret but its code. -/
structure RequestFrame (position : Option Nat) (st st' : AlarmStore S) : Prop where
  count : st'.alarmSystems.length = st.alarmSystems.length
  others : ∀ n, position ≠ some n → st'.alarmSystems[n]? = st.alarmSystems[n]?
  addressed : ∀ n as as', position = some n → st.alarmSystems[n]? = some as → st'.alarmSystems[n]? =
    some as' → ConfigFrame as as'
  secrets : ∀ uniqueId,
    (∀ n as, position = some n → st.alarmSystems[n]? = some as → uniqueId ≠ codeUniqueId as.id 0) →
    st'.secrets uniqueId = st.secrets uniqueId

theorem RequestFrame.refl (position : Option Nat) (st : AlarmStore S) :
    RequestFrame position st st := by
  refine ⟨rfl, fun _ _ => rfl, ?_, fun _ _ => rfl⟩
  intro n as as' _ has has'
  rw [has] at has'
  rw [Option.some.inj has']
  exact .refl _

def addressed (env : ConfigEnv D S) (req : ConfigRequest) (st : AlarmStore S) : Option Nat :=
  getAlarmSystem (alarmSystemIdToInteger env req.id) st.alarmSystems

variable {req : ConfigRequest} {st : AlarmStore S}

theorem putAlarmSystemConfig_of_refused {env : ConfigEnv D S}
    (h : addressed env req st = none ∨ bodyEntries env.qt req.content = none) :
    (putAlarmSystemConfig env req st).1 = st := by
  unfold putAlarmSystemConfig
  unfold addressed at h
  simp only
  cases hposition : getAlarmSystem (alarmSystemIdToInteger env req.id) st.alarmSystems with
  | none => rfl
  | some n =>
    have hbody := h.resolve_left (by rw [hposition]; exact Option.some_ne_none n)
    simp only [hbody]
    cases st.alarmSystems[n]? with
    | none => rfl
    | some as => rfl

theorem putAlarmSystemConfig_of_body {env : ConfigEnv D S} {n : Nat} {as : AlarmSystem}
    {entries : List (QString × QVariant D)} (hposition : addressed env req st = some n)
    (has : st.alarmSystems[n]? = some as) (hbody : bodyEntries env.qt req.content = some entries) :
    let s := putEntries env (alarmSystemIdToInteger env req.id) entries
      { as := as, secrets := st.secrets, rsp := {} }
    (putAlarmSystemConfig env req st).1 =
      { alarmSystems := st.alarmSystems.set n s.as, secrets := s.secrets } := by
  unfold putAlarmSystemConfig
  unfold addressed at hposition
  simp only [hposition, has, hbody]

theorem exists_of_addressed {env : ConfigEnv D S} {n : Nat} (h : addressed env req st = some n) :
    ∃ as, st.alarmSystems[n]? = some as := by
  unfold addressed getAlarmSystem at h
  obtain ⟨hlt, -⟩ := List.findIdx?_eq_some_iff_getElem.mp h
  exact ⟨_, List.getElem?_eq_getElem hlt⟩

/-- For every body, descriptor table and state: the request keeps its frame
exactly when no entry that the loop comes to and accepts names a protected item. -/
theorem putAlarmSystemConfig_frame_iff (env : ConfigEnv D S) (req : ConfigRequest)
    (st : AlarmStore S) :
    RequestFrame (addressed env req st) st (putAlarmSystemConfig env req st).1 ↔
      ∀ n as entries, addressed env req st = some n → st.alarmSystems[n]? = some as →
        bodyEntries env.qt req.content = some entries → KeepsProtected env as.items entries := by
  by_cases hrefused : addressed env req st = none ∨ bodyEntries env.qt req.content = none
  · rw [putAlarmSystemConfig_of_refused hrefused]
    refine ⟨fun _ n as entries hn _ hbody => ?_, fun _ => .refl _ _⟩
    rcases hrefused with hnone | hnone
    · rw [hnone] at hn
      exact absurd hn.symm (Option.some_ne_none _)
    · rw [hnone] at hbody
      exact absurd hbody.symm (Option.some_ne_none _)
  · rw [not_or] at hrefused
    obtain ⟨n, hn⟩ := Option.ne_none_iff_exists'.mp hrefused.1
    obtain ⟨entries, hbody⟩ := Option.ne_none_iff_exists'.mp hrefused.2
    obtain ⟨as, has⟩ := exists_of_addressed hn
    have hloop := putEntries_frame_iff env (alarmSystemIdToInteger env req.id) entries
      { as := as, secrets := st.secrets, rsp := {} }
    have hlt : n < st.alarmSystems.length := (List.getElem?_eq_some_iff.mp has).1
    rw [putAlarmSystemConfig_of_body hn has hbody]
    constructor
    · intro hframe n' as' entries' hn' has' hbody'
      rw [hn] at hn'
      rw [← Option.some.inj hn', has] at has'
      rw [hbody] at hbody'
      rw [← Option.some.inj has', ← Option.some.inj hbody', ← hloop]
      exact hframe.addressed n as _ hn has (List.getElem?_set_self hlt)
    · intro hkeeps
      have hkeeps := hkeeps n as entries hn has hbody
      refine ⟨List.length_set, ?_, ?_, ?_⟩
      · intro m hm
        have hne : n ≠ m := by
          intro heq
          rw [heq] at hn
          exact hm hn
        exact List.getElem?_set_ne hne
      · intro m as' as'' hm has' has''
        rw [hn] at hm
        rw [← Option.some.inj hm] at has' has''
        rw [has] at has'
        simp only [List.getElem?_set_self hlt] at has''
        rw [← Option.some.inj has', ← Option.some.inj has'']
        exact hloop.mpr hkeeps
      · intro uniqueId hother
        exact putEntries_secrets env _ entries _ hkeeps (hother n as hn has)

/-- The gateway as it is shipped: whole numbers, the descriptors of the source,
and a database that stores every code as it is. -/
def plainEnv : ConfigEnv Int QString where
  qt := Qt.whole
  atoi := fun id => (Qt.digits? id).getD 0
  descriptors := rItemDescriptors
  storeSecret := fun _ code => some code

def defaultStore : AlarmStore QString :=
  { alarmSystems := [AlarmSystem.started 1 [] false], secrets := fun _ => none }

/-- A request to the default alarm system that names its identifier and its
arm state. -/
def armStateRequest : ConfigRequest where
  id := QString.ofLatin1 "1"
  content := QString.ofLatin1 "\x7b\"alarmsystemid\":5,\"state/armstate\":7\x7d"

/-- The request is accepted: the identifier goes from 1 to 5 and the arm state of a
disarmed system to `in_alarm`. -/
theorem config_writes_armState :
    (defaultStore.alarmSystems.map fun as =>
        (as.number .alarmSystemId, as.number .armState)) = [(1, PanelStatus.disarmed.code)] ∧
      ((putAlarmSystemConfig plainEnv armStateRequest defaultStore).1.alarmSystems.map fun as =>
        (as.number .alarmSystemId, as.number .armState)) = [(5, PanelStatus.inAlarm.code)] ∧
      ¬ RequestFrame (addressed plainEnv armStateRequest defaultStore) defaultStore
        (putAlarmSystemConfig plainEnv armStateRequest defaultStore).1 := by
  have hafter : ((putAlarmSystemConfig plainEnv armStateRequest defaultStore).1.alarmSystems.map
      fun as => (as.number .alarmSystemId, as.number .armState)) =
        [(5, PanelStatus.inAlarm.code)] := by
    decide +kernel
  refine ⟨by decide, hafter, ?_⟩
  intro hframe
  obtain ⟨as', hlist, hnumbers⟩ := List.map_eq_singleton_iff.mp hafter
  have haddressed := hframe.addressed 0 _ as' (by decide +kernel) rfl (by rw [hlist]; rfl)
  have hstate := congrArg ResourceItem.num (haddressed.items .armState rfl)
  have hnum : (as'.items .armState).num = PanelStatus.inAlarm.code := congrArg Prod.snd hnumbers
  rw [hnum] at hstate
  exact absurd hstate (by decide)

end AlarmConfig

end DeconzRest
