import DeconzRest.Schedule.Steps
import DeconzRest.Schedule.Stored

/-!
# Schedules survive a restart

`createSchedule`, `setScheduleAttributes` and the timer each write the fields of a schedule,
its map and its text one by one.  `Stored` is what they have to keep in step, and `Persists`
is when a request or a tick does:

* a request creates a schedule with a name of its own, because another name is not in the map;
* a time that is refused ends the request in front of the text, so nothing else may be written;
* a new time is read again as what the request makes of it;
* no timer loses one of several turns, because the turns are not in the map.

`schedules_survive` is about all runs of such requests and ticks.
-/

namespace DeconzRest
namespace Schedules

open List

open QVariant (value contains)
open QString RuleRequest Transition FirstServed
open Json (Parts Every Numbers)

variable {D : Type} (env : ScheduleEnv D) (finite : D → Prop)

/-- Another schedule that is not deleted has the name. -/
def IsOther (schedules : List (Schedule D)) (j : Nat) (name : QString) : Prop :=
  ∃ i s, i ≠ j ∧ schedules[i]? = some s ∧ s.state = .normal ∧ s.name = name

/-- Every schedule that is not deleted survives, beside any of the others. -/
def AllSurvive (schedules : List (Schedule D)) : Prop :=
  ∀ j s, schedules[j]? = some s → s.state = .normal → Survives env (IsOther schedules j) s

/-- The value of a parameter that its block takes -/
def Attribute.taken (map : List (QString × QVariant D)) (a : Attribute D) : Option (QVariant D) :=
  let v := value map a.key
  if contains map a.key = true ∧ a.hasType v = true ∧ a.valid v = true then some v
  else none

/-- A timer whose time has come has several turns, and is still there when it has lost one:
it is too late and not deleted for that, or its command is run. -/
def LosesTurn (now : Int) (s : Schedule D) : Prop :=
  isActive s ∧ s.type = .timer ∧ 2 ≤ s.recurring ∧ (∀ e, s.endtime = some e → e ≤ now) ∧
    if timerDiff now s ≤ -5 then s.autodelete = false else HasCommand env s

/-- A body that `jsonToSchedule` takes is read again as the same schedule: it has a name of
its own, and its texts and numbers go through the text. -/
structure CreateKept (schedules : List (Schedule D)) (now : Int)
    (map : List (QString × QVariant D)) : Prop where
  name : ∃ name, QVariant.text? map "name" = some name ∧ name ≠ [] ∧ name.length ≤ 32 ∧
    WellFormed name ∧ ∀ s ∈ schedules, s.name ≠ name
  description : WellFormed (readDescription map)
  commandKeys : KeysInOrder (value map "command")
  numbers : Every (Parts.doubles finite) (.map (keptMap env now true map))
  time : textKind env.clock (repair (readTimes map).1) = textKind env.clock (readTimes map).1

/-- The text that counts in the map behind a request with a time: a `localtime` counts more
than a `time`, also the one that was there before. -/
def textBehind (s : Schedule D) (map : List (QString × QVariant D)) : QString :=
  if contains map "localtime" = true then
    (value map "localtime").toString env.qt
  else
    (QVariant.text? s.jsonMap "localtime").getD ((value map "time").toString env.qt)

/-- A request about a schedule keeps its fields, its map and its text in step. -/
structure UpdateKept (schedules : List (Schedule D)) (i : Nat) (s : Schedule D)
    (map : List (QString × QVariant D)) : Prop where
  name : ∀ v, (nameAttribute env).taken map = some v → WellFormed (v.toString env.qt) ∧
    ¬ IsOther schedules i (v.toString env.qt)
  description : ∀ v, (descriptionAttribute env).taken map = some v → WellFormed (v.toString env.qt)
  command : ∀ v, (commandAttribute env).taken map = some v → KeysInOrder v ∧
    Every (Parts.doubles finite) v
  refused : (readTimes (rereadTimes s map)).1 ≠ [] →
    isReadable env (readTimes (rereadTimes s map)).1 = false → ∀ a ∈
      attributes env, ∀ v, a.taken map = some v → value s.jsonMap a.key = v
  moved : (readTimes (rereadTimes s map)).1 ≠ [] →
    isReadable env (readTimes (rereadTimes s map)).1 = true →
      textKind env.clock (repair (textBehind env s (rereadTimes s map))) =
        movedKind env.clock (readTimes (rereadTimes s map)).1 (kind s)

def Persists (sys : ScheduleSystem D) : Action → Prop
  | .tick _ => ∀ (j : Nat) (s : Schedule D), sys.schedules[j]? = some s →
      LosesTurn env sys.nextTick s → ∃ i < j, ∃ s', sys.schedules[i]? = some s' ∧
        IsDue env sys.nextTick s'
  | .create ms rand content => created env sys.schedules (sys.at ms) rand content ≠ none →
      CreateKept env finite sys.schedules (sys.at ms) (parseContent env.qt content).1.toMap
  | .update _ _ id content => ∀ i s map, target env sys.schedules id content = some (i, s, map) →
      UpdateKept env finite sys.schedules i s map
  | .delete _ => True

/-! ## The invariant -/

/-- **The fields, the map and the text of a schedule are in step.** -/
structure Stored (s : Schedule D) : Prop extends Mapped env finite s where
  text : s.jsonString = jsonText env s.jsonMap

/-- So are those of all schedules that are not deleted, and no two of them have one name. -/
def AllStored (schedules : List (Schedule D)) : Prop :=
  ∀ j s, schedules[j]? = some s → s.state = .normal → Stored env finite s ∧
    ¬ IsOther schedules j s.name

section insert

variable {env finite} {s s' : Schedule D} {map : List (QString × QVariant D)} {key : String}
  {v : QVariant D}

theorem parsed_insert (h : Every Parts.parsed (.map map)) (hv : Every Parts.parsed v) :
    Every Parts.parsed (.map (QVariant.insert map key v)) := by
  rw [Every] at h ⊢
  exact ⟨Json.everyEntry_insert trivial hv h.1, Json.sorted_insert _ _ h.2⟩

theorem numbers_insert (h : Every (Parts.doubles finite) (.map map))
    (hv : Every (Parts.doubles finite) v) :
    Every (Parts.doubles finite) (.map (QVariant.insert map key v)) := by
  rw [Every] at h ⊢
  exact ⟨Json.everyEntry_insert trivial hv h.1, trivial⟩

theorem value_insert_self (map : List (QString × QVariant D)) (key : String) (v : QVariant D) :
    value (QVariant.insert map key v) key = v := by
  rw [QVariant.value_insert, if_pos rfl]

theorem value_insert_of_ne {other : String} (h : ofLatin1 other ≠ ofLatin1 key) :
    value (QVariant.insert map key v) other = value map other := by
  rw [QVariant.value_insert, if_neg h]

theorem insert_eq_self (h : Every Parts.parsed (.map map)) (hv : v ≠ .invalid)
    (hvalue : value map key = v) : QVariant.insert map key v = map := by
  have hlookup : map.lookup (ofLatin1 key) = some v := by
    unfold value at hvalue
    cases hl : map.lookup (ofLatin1 key) with
    | none =>
      rw [hl] at hvalue
      exact absurd hvalue.symm hv
    | some w =>
      rw [hl] at hvalue
      exact congrArg some hvalue
  rw [Every] at h
  replace h := h.2
  unfold QVariant.insert
  induction map with
  | nil => cases hlookup
  | cons e rest ih =>
    obtain ⟨k, w⟩ := e
    change (k :: rest.map Prod.fst).Pairwise (· < ·) at h
    rw [pairwise_cons] at h
    by_cases hk : ofLatin1 key = k
    · subst hk
      rw [lookup_cons_self, Option.some.injEq] at hlookup
      rw [Json.insert, if_neg (List.lt_irrefl _), if_pos rfl, hlookup]
    · rw [Json.lookup_cons_of_ne hk] at hlookup
      have hmem : ofLatin1 key ∈ rest.map Prod.fst := by
        obtain ⟨front, back, rfl, -⟩ := lookup_eq_some_iff.mp hlookup
        simp
      have hlt : ¬ ofLatin1 key < k := fun hlt => List.lt_asymm hlt (h.1 _ hmem)
      have hrest : value rest key = v := by
        unfold value
        rw [hlookup]
        rfl
      rw [Json.insert, if_neg hlt, if_neg hk, ih hrest hlookup h.2]

/-- **One more entry of the map**: its own field is as it says, and the others are as before. -/
theorem FieldsMapped.insert (h : FieldsMapped env finite s)
    (hmap : s'.jsonMap = QVariant.insert s.jsonMap key v) (hparsed : Every Parts.parsed v)
    (hnumbers : Every (Parts.doubles finite) v)
    (hnew : ∀ f : Field, ofLatin1 f.key = ofLatin1 key → f.Holds env s'.jsonMap s')
    (hkept : ∀ f : Field, ofLatin1 f.key ≠ ofLatin1 key → f.Holds env s.jsonMap s →
      f.Holds env s.jsonMap s') : FieldsMapped env finite s' := by
  refine ⟨?_, ?_, ?_⟩
  · rw [hmap]
    exact parsed_insert h.parsed hparsed
  · rw [hmap]
    exact numbers_insert h.numbers hnumbers
  · intro f
    by_cases hf : ofLatin1 f.key = ofLatin1 key
    · exact hnew f hf
    · rw [hmap]
      exact (Field.holds_congr env (value_insert_of_ne hf) s').mpr (hkept f hf (h.fields f))

theorem FieldsMapped.insert_other (h : FieldsMapped env finite s) (t : QString)
    (hkey : ∀ f : Field, ofLatin1 f.key ≠ ofLatin1 key) :
    FieldsMapped env finite { s with jsonMap := QVariant.insert s.jsonMap key (.string t) } :=
  h.insert rfl trivial trivial (fun f hf => absurd hf (hkey f)) fun f _ hold => by
    cases f <;> exact hold

theorem readTimes_insert (key : String) (hlocal : ofLatin1 "localtime" ≠ ofLatin1 key)
    (htime : ofLatin1 "time" ≠ ofLatin1 key) :
    readTimes (QVariant.insert map key v) = readTimes map := by
  unfold readTimes QVariant.text?
  rw [value_insert_of_ne hlocal, value_insert_of_ne htime]

end insert

/-! ## The blocks of a request -/

section attributes

variable {env finite} {schedules : List (Schedule D)} {i : Nat} {s : Schedule D}
  {map : List (QString × QVariant D)}

variable (id : QString)

theorem Attribute.set_taken (a : Attribute D) (st : Schedule D × ApiResponse D) :
    (a.set env id map st).1 =
      match a.taken map with
      | some v => { a.write v st.1 with
          jsonMap := QVariant.insert (a.write v st.1).jsonMap a.key v }
      | none => st.1 := by
  rw [Attribute.set_fst]
  unfold Attribute.taken
  by_cases htaken : contains map a.key = true ∧ a.hasType (value map a.key) = true ∧
      a.valid (value map a.key) = true
  · simp only [if_pos htaken]
  · simp only [if_neg htaken]

variable {a : Attribute D} {v : QVariant D}

theorem Attribute.taken_some (h : a.taken map = some v) :
    v = value map a.key ∧ a.hasType v = true ∧ a.valid v = true := by
  unfold Attribute.taken at h
  simp only at h
  split at h
  · rename_i htaken
    cases h
    exact ⟨rfl, htaken.2⟩
  · cases h

theorem isString_iff : isString v = true ↔ ∃ t, v = .string t := by
  cases v <;> simp [isString]

theorem text?_insert_self (m : List (QString × QVariant D)) (key : String) (t : QString) :
    QVariant.text? (QVariant.insert m key (.string t)) key = some t := by
  unfold QVariant.text?
  rw [value_insert_self]

theorem readChoice_insert {key first second : String} {t : QString}
    (h : (t == ofLatin1 first || t == ofLatin1 second) = true) :
    readChoice (QVariant.insert map key (.string t)) key first second = t := by
  unfold readChoice
  rw [text?_insert_self, Option.filter_some, if_pos h]
  rfl

theorem Attribute.holds_self (ha : a ∈ attributes env) (htaken : a.taken map = some v)
    (hkept : UpdateKept env finite schedules i s map) (m : List (QString × QVariant D))
    (x : Schedule D) (f : Field) (hf : ofLatin1 f.key = ofLatin1 a.key) :
    f.Holds env (QVariant.insert m a.key v) (a.write v x) := by
  obtain ⟨-, htype, hvalid⟩ := Attribute.taken_some htaken
  simp only [attributes, mem_cons, not_mem_nil, or_false] at ha
  rcases ha with rfl | rfl | rfl | rfl | rfl | rfl
  · change ofLatin1 f.key = ofLatin1 "name" at hf
    cases f <;> first | exact absurd hf (by decide) | skip
    obtain ⟨t, rfl⟩ := isString_iff.mp htype
    have hshort : 0 < t.length ∧ t.length ≤ 32 := of_decide_eq_true hvalid
    exact ⟨text?_insert_self m "name" t, hshort.2, (hkept.name _ htaken).1⟩
  · change ofLatin1 f.key = ofLatin1 "description" at hf
    cases f <;> first | exact absurd hf (by decide) | skip
    obtain ⟨t, rfl⟩ := isString_iff.mp htype
    have hshort : 0 < t.length ∧ t.length ≤ 32 := of_decide_eq_true hvalid
    have hlong : decide (t.length ≤ 64) = true := decide_eq_true (by omega)
    have hread : readDescription (QVariant.insert m "description" (.string t)) = t := by
      unfold readDescription
      rw [text?_insert_self, Option.filter_some, if_pos hlong]
      rfl
    exact ⟨hread, hkept.description _ htaken⟩
  · change ofLatin1 f.key = ofLatin1 "status" at hf
    cases f <;> first | exact absurd hf (by decide) | skip
    obtain ⟨t, rfl⟩ := isString_iff.mp htype
    exact readChoice_insert hvalid
  · change ofLatin1 f.key = ofLatin1 "activation" at hf
    cases f <;> first | exact absurd hf (by decide) | skip
    obtain ⟨t, rfl⟩ := isString_iff.mp htype
    exact readChoice_insert hvalid
  · change ofLatin1 f.key = ofLatin1 "command" at hf
    cases f <;> first | exact absurd hf (by decide) | skip
    cases v with
    | map cmd =>
      have hcmd : isCommand cmd = true := hvalid
      have hread : readCommand env (QVariant.insert m "command" (.map cmd)) =
          some (jsonText env cmd) := by
        unfold readCommand
        rw [value_insert_self]
        exact if_pos hcmd
      have hkeys : KeysInOrder
          (value (QVariant.insert m "command" (.map cmd)) "command") := by
        rw [value_insert_self]
        exact (hkept.command _ htaken).1
      exact ⟨hread, hkeys⟩
    | invalid | bool | int | double | string | list => cases htype
  · change ofLatin1 f.key = ofLatin1 "autodelete" at hf
    cases f <;> first | exact absurd hf (by decide) | skip
    cases v with
    | bool b =>
      have hread : readAutodelete (QVariant.insert m "autodelete" (.bool b)) = b := by
        unfold readAutodelete
        rw [value_insert_self]
      exact hread.trans (by cases b <;> rfl)
    | invalid | map | int | double | string | list => cases hvalid

theorem Attribute.holds_other (ha : a ∈ attributes env) (v : QVariant D)
    (m : List (QString × QVariant D)) (x : Schedule D) (f : Field)
    (hf : ofLatin1 f.key ≠ ofLatin1 a.key) : f.Holds env m x → f.Holds env m (a.write v x) := by
  simp only [attributes, mem_cons, not_mem_nil, or_false] at ha
  rcases ha with rfl | rfl | rfl | rfl | rfl | rfl <;> cases f <;>
    first | exact id | exact absurd rfl hf

theorem Attribute.write_jsonMap (ha : a ∈ attributes env) (v : QVariant D) (x : Schedule D) :
    (a.write v x).jsonMap = x.jsonMap := by
  simp only [attributes, mem_cons, not_mem_nil, or_false] at ha
  rcases ha with rfl | rfl | rfl | rfl | rfl | rfl <;> rfl

theorem Attribute.numbers_taken (ha : a ∈ attributes env) (htaken : a.taken map = some v)
    (hkept : UpdateKept env finite schedules i s map) :
    Every (Parts.doubles finite) v := by
  obtain ⟨-, htype, hvalid⟩ := Attribute.taken_some htaken
  have hstring : isString v = true → Every (Parts.doubles finite) v := by
    intro h
    obtain ⟨t, rfl⟩ := isString_iff.mp h
    exact trivial
  simp only [attributes, mem_cons, not_mem_nil, or_false] at ha
  rcases ha with rfl | rfl | rfl | rfl | rfl | rfl
  · exact hstring htype
  · exact hstring htype
  · exact hstring htype
  · exact hstring htype
  · exact (hkept.command _ htaken).2
  · cases v with
    | bool b => exact trivial
    | invalid | map | int | double | string | list => cases hvalid

/-- **All blocks** keep the fields and the map in step. -/
theorem setAttributes_fieldsMapped (hmap : Every Parts.parsed (.map map))
    (hkept : UpdateKept env finite schedules i s map) (h : FieldsMapped env finite s) :
    FieldsMapped env finite (setAttributes env id map s).1 := by
  refine setAttributes_induction env id map h ?_
  intro a ha st hst
  rw [Attribute.set_taken]
  cases htaken : a.taken map with
  | none => exact hst
  | some v =>
    have hparsed : Every Parts.parsed v := by
      rw [(Attribute.taken_some htaken).1]
      exact hmap.value a.key
    refine hst.insert (congrArg (QVariant.insert · a.key v) (Attribute.write_jsonMap ha v st.1))
      hparsed (Attribute.numbers_taken ha htaken hkept) ?_ ?_
    · intro f hf
      have hself := Attribute.holds_self ha htaken hkept (a.write v st.1).jsonMap st.1 f hf
      cases f <;> exact hself
    · intro f hf hold
      have hother := Attribute.holds_other ha v st.1.jsonMap st.1 f hf hold
      cases f <;> exact hother

theorem setAttributes_jsonMap (map : List (QString × QVariant D)) (h : FieldsMapped env finite s)
    (hsame : ∀ a ∈ attributes env, ∀ v, a.taken map = some v → value s.jsonMap a.key = v) :
    (setAttributes env id map s).1.jsonMap = s.jsonMap := by
  refine setAttributes_induction env id map (motive := fun x => x.jsonMap = s.jsonMap) rfl ?_
  intro a ha st hst
  rw [Attribute.set_taken]
  cases htaken : a.taken map with
  | none => exact hst
  | some v =>
    obtain ⟨-, htype, hvalid⟩ := Attribute.taken_some htaken
    have hv : v ≠ .invalid := by
      rintro rfl
      simp only [attributes, mem_cons, not_mem_nil, or_false] at ha
      rcases ha with rfl | rfl | rfl | rfl | rfl | rfl <;>
        first | exact Bool.false_ne_true htype | exact Bool.false_ne_true hvalid
    show QVariant.insert (a.write v st.1).jsonMap a.key v = s.jsonMap
    rw [Attribute.write_jsonMap ha, hst]
    exact insert_eq_self h.parsed hv (hsame a ha v htaken)

variable (env) in
theorem setAttributes_name (map : List (QString × QVariant D)) (s : Schedule D) :
    (setAttributes env id map s).1.name = s.name ∨ ∃ v, (nameAttribute env).taken map =
      some v ∧ (setAttributes env id map s).1.name = v.toString env.qt := by
  refine setAttributes_induction env id map (motive := fun x => x.name = s.name ∨
    ∃ v, (nameAttribute env).taken map = some v ∧ x.name = v.toString env.qt) (.inl rfl) ?_
  intro a ha st hst
  rw [Attribute.set_taken]
  cases htaken : a.taken map with
  | none => exact hst
  | some v =>
    simp only [attributes, mem_cons, not_mem_nil, or_false] at ha
    rcases ha with rfl | rfl | rfl | rfl | rfl | rfl
    · exact .inr ⟨v, htaken, rfl⟩
    all_goals exact hst

variable (env) in
theorem setAttributes_kind (map : List (QString × QVariant D)) (s : Schedule D) :
    kind (setAttributes env id map s).1 = kind s := by
  rw [setAttributes_kept env id map s]
  rfl

end attributes

/-! ## The time of a request -/

section times

variable {env finite} {schedules : List (Schedule D)} {i : Nat} {s s' : Schedule D}
  {map m : List (QString × QVariant D)} {now : Int} {rand : Nat}

theorem Mapped.of_same (h : Mapped env finite s) (hmap : s'.jsonMap = s.jsonMap)
    (hfields : ∀ f : Field, f.Holds env s.jsonMap s → f.Holds env s.jsonMap s')
    (hkind : Schedules.kind s' = Schedules.kind s) : Mapped env finite s' where
  parsed := hmap ▸ h.parsed
  numbers := hmap ▸ h.numbers
  fields := fun f => hmap ▸ hfields f (h.fields f)
  kind := by rw [hmap, hkind, h.kind]
  valid := by
    have htype : s'.type = s.type := congrArg Kind.type hkind
    rw [htype]
    exact h.valid

theorem Mapped.store (h : Mapped env finite s) (now : Int) :
    Stored env finite (Schedules.store env now s) := by
  have hkey : ∀ f : Field, ofLatin1 f.key ≠ ofLatin1 "etag" := by
    intro f
    cases f <;> decide
  have hfields := h.toFieldsMapped.insert_other (env.clock.etag now) hkey
  exact
    { parsed := hfields.parsed
      numbers := hfields.numbers
      fields := fun f => by
        have hold := hfields.fields f
        cases f <;> exact hold
      kind := by
        show textKind env.clock (repair (readTimes (QVariant.insert s.jsonMap "etag"
          (.string (env.clock.etag now)))).1) = Schedules.kind s
        rw [readTimes_insert "etag" (by decide) (by decide)]
        exact h.kind
      valid := h.valid
      text := rfl }

variable (id : QString)

theorem setAttributes_value (map : List (QString × QVariant D)) (s : Schedule D) (key : String)
    (hkey : ∀ k ∈ ["name", "description", "status", "activation", "command", "autodelete"], ofLatin1 key ≠ ofLatin1 k)
    :
    value (setAttributes env id map s).1.jsonMap key = value s.jsonMap key := by
  refine setAttributes_induction env id map
    (motive := fun x => value x.jsonMap key = value s.jsonMap key) rfl ?_
  intro a ha st hst
  rw [Attribute.set_taken]
  cases a.taken map with
  | none => exact hst
  | some v =>
    have hmem : a.key ∈ (attributes env).map Attribute.key := mem_map_of_mem ha
    show value (QVariant.insert (a.write v st.1).jsonMap a.key v) key = _
    rw [Attribute.write_jsonMap ha, value_insert_of_ne (hkey a.key hmem)]
    exact hst

variable (env) in
theorem setAttributes_localtime (map : List (QString × QVariant D)) (s : Schedule D) :
    QVariant.text? (setAttributes env id map s).1.jsonMap "localtime" =
      QVariant.text? s.jsonMap "localtime" := by
  unfold QVariant.text?
  rw [setAttributes_value id map s "localtime" (by decide)]

theorem setAttributes_readTimes (map : List (QString × QVariant D)) (s : Schedule D) :
    readTimes (setAttributes env id map s).1.jsonMap = readTimes s.jsonMap := by
  unfold readTimes
  rw [setAttributes_localtime]
  unfold QVariant.text?
  rw [setAttributes_value id map s "time" (by decide)]

theorem moveTime_kept {timeSpec : TimeSpec} {time : QString} {randomMax : Nat}
    (h : moveTime env now timeSpec time randomMax rand map s = .ok s') :
    s'.jsonMap = s.jsonMap ∧ s'.name = s.name ∧ s'.state = s.state ∧
      ∀ (f : Field) (m : List (QString × QVariant D)), f.Holds env m s → f.Holds env m s' := by
  have hsame : s' = { s with
      type := s'.type
      time := s'.time
      localtime := s'.localtime
      datetime := s'.datetime
      weekBitmap := s'.weekBitmap
      recurring := s'.recurring
      endtime := s'.endtime
      timeout := s'.timeout } := by
    unfold moveTime at h
    cases hread : readTime env.clock time with
    | repeating | timer | weekly | weeklyRandom =>
      rw [hread] at h
      cases h
      rfl
    | unmatched =>
      rw [hread] at h
      cases h
    | absolute =>
      rw [hread] at h
      simp only at h
      split at h
      · cases h
        rfl
      · split at h <;> cases h
  rw [hsame]
  refine ⟨rfl, rfl, rfl, ?_⟩
  intro f m
  cases f <;> exact id

variable (env) in
def putText (map : List (QString × QVariant D)) (key : String)
    (m : List (QString × QVariant D)) : List (QString × QVariant D) :=
  if contains map key = true then
    QVariant.insert m key (.string ((value map key).toString env.qt))
  else
    m

variable (env) in
theorem storeTexts_jsonMap (map : List (QString × QVariant D)) (s : Schedule D)
    (rsp : ApiResponse D) : (storeTexts env id map (s, rsp)).1.jsonMap =
      putText env map "time" (putText env map "localtime" s.jsonMap) := by
  unfold storeTexts storeText putText
  split <;> split <;> rfl

theorem text?_putText_self {key : String} (h : contains map key = true) :
    QVariant.text? (putText env map key m) key = some ((value map key).toString env.qt) := by
  unfold putText
  rw [if_pos h, text?_insert_self]

theorem text?_putText_of_ne {key other : String} (h : ofLatin1 other ≠ ofLatin1 key) :
    QVariant.text? (putText env map key m) other = QVariant.text? m other := by
  unfold putText
  split
  · unfold QVariant.text?
    rw [value_insert_of_ne h]
  · rfl

/-- **The text that counts behind the request** -/
theorem readTimes_putText (hgiven : (readTimes map).1 ≠ []) (s : Schedule D) :
    (readTimes (putText env map "time" (putText env map "localtime" s.jsonMap))).1 =
      textBehind env s map := by
  have hlocal : ofLatin1 "localtime" ≠ ofLatin1 "time" := by decide
  unfold readTimes textBehind
  rw [text?_putText_of_ne hlocal]
  by_cases hbody : contains map "localtime" = true
  · rw [text?_putText_self hbody, if_pos hbody]
  · have hkept : putText env map "localtime" s.jsonMap = s.jsonMap := by
      unfold putText
      rw [if_neg hbody]
    have htime := (contains_of_readTimes hgiven).resolve_right hbody
    rw [hkept, text?_putText_self htime, if_neg hbody]
    cases QVariant.text? s.jsonMap "localtime" <;> rfl

theorem FieldsMapped.putText (h : FieldsMapped env finite s)
    (map : List (QString × QVariant D)) {key : String}
    (hkey : ∀ f : Field, ofLatin1 f.key ≠ ofLatin1 key) :
    FieldsMapped env finite { s with jsonMap := Schedules.putText env map key s.jsonMap } := by
  unfold Schedules.putText
  split
  · exact h.insert_other _ hkey
  · exact h

theorem moved_mapped {x : Schedule D} {rsp : ApiResponse D} {time : QString} {randomMax : Nat}
    {id : QString} (h : FieldsMapped env finite x) (hvalid : (kind x).type ≠ .invalid)
    (hgiven : (readTimes map).1 ≠ [])
    (hcut : cutRandom env.clock (readTimes map).1 = some (time, randomMax))
    (hmove : moveTime env now (readTimes map).2 time randomMax rand map x = .ok s')
    (hmoved : textKind env.clock (repair (textBehind env x map)) =
      movedKind env.clock (readTimes map).1 (kind x)) :
    Mapped env finite (storeTexts env id map (s', rsp)).1 := by
  obtain ⟨hmap, -, -, hfields⟩ := moveTime_kept hmove
  have hkind := kind_moveTime hmove
  obtain ⟨text, localtime, jsonMap, hform⟩ := storeTexts_fst env id map s' rsp
  have hjson := storeTexts_jsonMap env id map s' rsp
  have hmapped : FieldsMapped env finite s' :=
    ⟨hmap ▸ h.parsed, hmap ▸ h.numbers, fun f => hmap ▸ hfields f _ (h.fields f)⟩
  have hlocalKey : ∀ f : Field, ofLatin1 f.key ≠ ofLatin1 "localtime" := by
    intro f
    cases f <;> decide
  have htimeKey : ∀ f : Field, ofLatin1 f.key ≠ ofLatin1 "time" := by
    intro f
    cases f <;> decide
  have hboth := (hmapped.putText map hlocalKey).putText map htimeKey
  have hstored : kind (storeTexts env id map (s', rsp)).1 = kind s' := by
    rw [hform]
    rfl
  have hset : kind s' = movedKind env.clock (readTimes map).1 (kind x) := by
    unfold movedKind
    rw [hcut]
    exact hkind
  refine { parsed := ?_, numbers := ?_, fields := ?_, kind := ?_, valid := ?_ }
  · rw [hjson]
    exact hboth.parsed
  · rw [hjson]
    exact hboth.numbers
  · intro f
    rw [hjson, hform]
    have hold := hboth.fields f
    cases f <;> exact hold
  · rw [hjson, hstored, hmap, readTimes_putText hgiven x, hmoved, hset]
  · have htype : (storeTexts env id map (s', rsp)).1.type = (kind s').type := by
      rw [hform]
      rfl
    rw [htype, hkind]
    exact Kind.set_type hvalid

/-- **A request about the schedule** keeps it stored. -/
theorem updated_stored {id : QString} (h : Stored env finite s)
    (hmap : Every Parts.parsed (.map map)) (hkept : UpdateKept env finite schedules i s map) :
    Stored env finite (updateSchedule env id now rand map s).1 := by
  have hfields := setAttributes_fieldsMapped id hmap hkept h.toFieldsMapped
  have hkind := setAttributes_kind env id map s
  have hx := setAttributes_kept env id map s
  have hstring : (setAttributes env id map s).1.jsonString = s.jsonString := by rw [hx]
  have hmapped : Mapped env finite (setAttributes env id map s).1 :=
    { parsed := hfields.parsed
      numbers := hfields.numbers
      fields := hfields.fields
      kind := by rw [setAttributes_readTimes, hkind, h.kind]
      valid := by
        have htype : (setAttributes env id map s).1.type = s.type := congrArg Kind.type hkind
        rw [htype]
        exact h.valid }
  have hlocal := setAttributes_localtime env id map s
  have hjson := setAttributes_jsonMap id map h.toFieldsMapped
  have hcases := setTimes_cases env id now rand (rereadTimes s map) (setAttributes env id map s)
  unfold updateSchedule
  simp only
  generalize setAttributes env id map s = st at *
  rcases hcases with ⟨-, hschedule, haccepted⟩ | ⟨hgiven, hunread, hschedule, haccepted⟩ |
    ⟨hgiven, hreadable, haccepted, time, randomMax, x, hcut, hmove, hschedule⟩
  · rw [if_pos haccepted, hschedule]
    exact hmapped.store now
  · -- the text is not made anew, so the map must be as it was
    have hsame := hjson (hkept.refused hgiven hunread)
    rw [if_neg (by simp [haccepted]), hschedule]
    have hreset : Mapped env finite { st.1 with lastTriggerDatetime := none } :=
      hmapped.of_same rfl (fun f hold => by cases f <;> exact hold) rfl
    refine ⟨hreset, ?_⟩
    show st.1.jsonString = jsonText env st.1.jsonMap
    rw [hstring, hsame, h.text]
  · rw [if_pos haccepted, hschedule]
    have hbehind : textBehind env { st.1 with lastTriggerDatetime := none } (rereadTimes s map) =
        textBehind env s (rereadTimes s map) := by
      unfold textBehind
      rw [hlocal]
    have hkind' : kind { st.1 with lastTriggerDatetime := none } = kind s := hkind
    have hreset : FieldsMapped env finite { st.1 with lastTriggerDatetime := none } :=
      ⟨hfields.parsed, hfields.numbers, fun f => by
        have hold := hfields.fields f
        cases f <;> exact hold⟩
    refine (moved_mapped hreset ?_ hgiven hcut hmove ?_).store now
    · rw [hkind']
      exact h.valid
    · rw [hbehind, hkind']
      exact hkept.moved hgiven hreadable

variable (env) in
theorem updated_name (now : Int) (rand : Nat) (map : List (QString × QVariant D)) (s : Schedule D) :
    (updateSchedule env id now rand map s).1.name = (setAttributes env id map s).1.name ∧
      (updateSchedule env id now rand map s).1.state = s.state := by
  have hstate : (setAttributes env id map s).1.state = s.state := by
    rw [setAttributes_kept env id map s]
  have hcases := setTimes_cases env id now rand (rereadTimes s map) (setAttributes env id map s)
  unfold updateSchedule
  simp only
  generalize setAttributes env id map s = st at *
  rcases hcases with ⟨-, hschedule, haccepted⟩ | ⟨-, -, hschedule, haccepted⟩ |
    ⟨-, -, haccepted, time, randomMax, x, -, hmove, hschedule⟩
  · rw [if_pos haccepted, hschedule]
    exact ⟨rfl, hstate⟩
  · rw [if_neg (by simp [haccepted]), hschedule]
    exact ⟨rfl, hstate⟩
  · obtain ⟨-, hname, hstate', -⟩ := moveTime_kept hmove
    obtain ⟨text, localtime, jsonMap, hform⟩ := storeTexts_fst env id (rereadTimes s map) x st.2
    rw [if_pos haccepted, hschedule, hform]
    exact ⟨hname, hstate'.trans hstate⟩

end times

/-! ## A new schedule -/

section creating

variable {env finite} {schedules : List (Schedule D)} {now : Int} {rand : Nat}
  {content : QString} {map : List (QString × QVariant D)}

theorem parsed_content (qt : Qt D) (content : QString) :
    Every Parts.parsed (.map (parseContent qt content).1.toMap) := by
  have hempty : Every (Parts.parsed : Parts D) (.map []) := ⟨trivial, List.Pairwise.nil⟩
  have hvalue : Every Parts.parsed (parseContent qt content).1 := by
    unfold parseContent
    split
    · exact trivial
    · exact Json.every_parse qt content
  generalize (parseContent qt content).1 = v at hvalue
  cases v with
  | map entries => exact hvalue
  | invalid | bool | int | double | string | list => exact hempty

theorem value_keptMap (now : Int) (request : Bool) (map : List (QString × QVariant D))
    {key : String} (hetag : ofLatin1 key ≠ ofLatin1 "etag")
    (hcreated : ofLatin1 key ≠ ofLatin1 "created") :
    value (keptMap env now request map) key = value map key := by
  unfold keptMap
  simp only
  split
  · rw [value_insert_of_ne hcreated, value_insert_of_ne hetag]
  · rw [value_insert_of_ne hetag]

theorem readName_of_kept {name : QString} (hname : QVariant.text? map "name" = some name)
    (hshort : name.length ≤ 32) (hother : ∀ s ∈ schedules, s.name ≠ name) :
    readName schedules map = name := by
  have hnone : schedules.any (fun s => s.name == name) = false := by
    rw [any_eq_false]
    intro s hs
    simpa using hother s hs
  unfold readName
  rw [hname, Option.filter_some, if_pos (decide_eq_true hshort)]
  simp [hnone]

/-- **A new schedule** is stored, and has a name of its own. -/
theorem created_stored {new : Schedule D}
    (hnew : created env schedules now rand content = some new)
    (hkept : CreateKept env finite schedules now (parseContent env.qt content).1.toMap) :
    Stored env finite new ∧ ∀ s ∈ schedules, s.name ≠ new.name := by
  unfold created at hnew
  split at hnew
  · rename_i s hs
    cases hnew
    obtain ⟨command, time, randomMax, hcommand, hgiven, hcut, htype, hs⟩ := jsonToSchedule_ok env hs
    have hparsed := parsed_content env.qt content
    generalize (parseContent env.qt content).1.toMap = map at *
    obtain ⟨name, htext, hname, hshort, hwell, hother⟩ := hkept.name
    obtain ⟨hname', hdescription, hcommand', hstatus, hactivation, hautodelete⟩ :=
      startTime_parameters env now (readTimes map).2 time randomMax rand
        (readParameters schedules map command {})
    have hkind := kind_startTime env now rand (readTimes map).2 time randomMax
      (readParameters schedules map command {})
    rw [← readName_of_kept htext hshort hother] at hname
    have hby : nameById { s with id := newId schedules } = { s with id := newId schedules } := by
      unfold nameById
      rw [if_neg]
      rw [hs]
      exact fun hempty => hname (hname'.symm.trans hempty)
    have hnamed : s.name = name := by
      rw [hs]
      exact hname'.trans (readName_of_kept htext hshort hother)
    rw [hby]
    refine ⟨?_, fun t ht => ?_⟩
    · have hfields : ∀ f : Field, f.Holds env map s := by
        intro f
        rw [hs] at hnamed ⊢
        cases f with
        | name => exact ⟨hnamed ▸ htext, hnamed ▸ hshort, hnamed ▸ hwell⟩
        | description => exact ⟨hdescription.symm, hdescription.symm ▸ hkept.description⟩
        | command => exact ⟨hcommand'.symm ▸ hcommand, hkept.commandKeys⟩
        | status => exact hstatus.symm
        | activation => exact hactivation.symm
        | autodelete => exact hautodelete.symm
      have hjson : s.jsonMap = keptMap env now true map := by rw [hs]
      have hkeptFields : ∀ f : Field, f.Holds env (keptMap env now true map) s := by
        intro f
        refine (Field.holds_congr env (value_keptMap now true map ?_ ?_) s).mpr (hfields f)
        · cases f <;> decide
        · cases f <;> decide
      have htimes : readTimes (keptMap env now true map) = readTimes map := by
        unfold readTimes QVariant.text?
        rw [value_keptMap now true map (by decide) (by decide),
          value_keptMap now true map (by decide) (by decide)]
      exact
        { parsed := by
            show Every Parts.parsed (.map s.jsonMap)
            rw [hjson]
            exact parsed_insert (parsed_insert hparsed trivial) trivial
          numbers := by
            show Every (Parts.doubles finite) (.map s.jsonMap)
            rw [hjson]
            exact hkept.numbers
          fields := fun f => by
            have hold := hkeptFields f
            rw [← hjson] at hold
            cases f <;> exact hold
          kind := by
            show textKind env.clock (repair (readTimes s.jsonMap).1) = kind s
            rw [hjson, htimes, hkept.time]
            unfold textKind
            rw [if_neg hgiven, hcut, hs]
            exact hkind.symm
          valid := htype
          text := by
            show s.jsonString = jsonText env s.jsonMap
            rw [hs] }
    · show t.name ≠ s.name
      rw [hnamed]
      exact hother t ht
  · cases hnew

end creating

/-! ## Ticks -/

section ticks

variable {env finite} {now : Int} {rand : Nat} {s s' : Schedule D}

theorem Mapped.disable (h : Mapped env finite s) : Stored env finite (Schedules.disable env s) := by
  have hfields : FieldsMapped env finite (Schedules.disable env s) := by
    refine h.toFieldsMapped.insert rfl trivial trivial ?_ ?_
    · intro f hf
      cases f <;> first | exact absurd hf (by decide) | skip
      exact readChoice_insert (by decide)
    · intro f hf hold
      cases f <;> first | exact absurd rfl hf | exact hold
  exact
    { parsed := hfields.parsed
      numbers := hfields.numbers
      fields := hfields.fields
      kind := by
        show textKind env.clock (repair (readTimes (QVariant.insert s.jsonMap "status"
          (.string (ofLatin1 "disabled")))).1) = Schedules.kind s
        rw [readTimes_insert "status" (by decide) (by decide)]
        exact h.kind
      valid := h.valid
      text := rfl }

theorem Stored.of_same (h : Stored env finite s) (e : Option Int) (r : Nat) (l d : Option Int)
    (hr : r = s.recurring) : Stored env finite { s with
      endtime := e
      recurring := r
      lastTriggerDatetime := l
      datetime := d } := by
  subst hr
  have hmapped : Mapped env finite { s with
      endtime := e
      lastTriggerDatetime := l
      datetime := d } :=
    h.toMapped.of_same rfl (fun f hold => by cases f <;> exact hold) rfl
  exact ⟨hmapped, h.text⟩

theorem visit_pass_recurring (h : visit env now rand s = .pass s') (hnormal : s'.state = .normal)
    (hturn : ¬ LosesTurn env now s) : s'.recurring = s.recurring := by
  have hgive : ∀ x : Schedule D, (giveUp env x).recurring = x.recurring := by
    intro x
    unfold giveUp
    simp only
    split <;> rfl
  have hsettle : ∀ diff, settle env now rand diff s = .pass s' → s'.recurring = s.recurring := by
    intro diff hpass
    rcases settle_pass hpass with ⟨rfl, -⟩ | rfl
    · rfl
    · exact hgive s
  unfold visit at h
  split at h
  · rename_i hactive
    cases htype : s.type with
    | absoluteTime =>
      rw [htype] at h
      exact hsettle _ h
    | recurringTime =>
      rw [htype] at h
      simp only at h
      split at h
      · exact hsettle _ h
      · cases h
        rfl
    | invalid =>
      rw [htype] at h
      cases h
      rfl
    | timer =>
      rw [htype] at h
      simp only at h
      split at h
      · cases h
        rfl
      · rename_i hover
        have hpast : ∀ e, s.endtime = some e → e ≤ now := by
          intro e he
          by_contra hfuture
          exact hover ⟨e, he, by omega⟩
        by_cases hlate : timerDiff now s ≤ -5
        · have hgiven : s' = giveUp env (takeTurn env now s) := by
            rcases settle_pass h with ⟨-, hweekly⟩ | hgiven
            · have hkind := hweekly hlate
              unfold takeTurn at hkind
              split at hkind
              · split at hkind
                · exact absurd (htype.symm.trans hkind) (by decide)
                · exact absurd (htype.symm.trans hkind) (by decide)
              · exact absurd (htype.symm.trans hkind) (by decide)
            · exact hgiven
          rw [hgiven, hgive]
          by_cases hlast : s.recurring = 1
          · unfold takeTurn
            rw [if_pos hlast]
            split <;> rfl
          · have hturned : takeTurn env now s = { s with
                endtime := s.endtime.map fun _ => QDateTime.addSecs now s.timeout
                recurring := s.recurring - 1 } := if_neg hlast
            rw [hturned]
            show s.recurring - 1 = s.recurring
            by_contra hlost
            -- it had several turns, so it is deleted when it is given up
            refine hturn ⟨hactive, htype, by omega, hpast, ?_⟩
            rw [if_pos hlate]
            cases hauto : s.autodelete with
            | false => rfl
            | true =>
              rw [hgiven, hturned] at hnormal
              unfold giveUp Schedules.disable at hnormal
              simp [hauto] at hnormal
        · have hdiff := timerDiff_nonpos hpast
          rw [settle_of_due ⟨by omega, hdiff⟩] at h
          cases h
  · cases h
    rfl

theorem isCommand_of_readCommand {map : List (QString × QVariant D)} {command : QString}
    (h : readCommand env map = some command) :
    isCommand (value map "command").toMap = true := by
  unfold readCommand at h
  split at h
  · rename_i cmd hvalue
    by_contra hnot
    rw [hvalue] at hnot
    rw [if_neg (show ¬ isCommand cmd = true from hnot)] at h
    cases h
  · cases h

theorem trigger_deleted (now : Int) (rand : Nat)
    (hcommand : isCommand (value s.jsonMap "command").toMap = true)
    (hnone : ¬ HasCommand env s) : (trigger env now rand s).1.state = .deleted := by
  have hvalue : value (randomizeAgain env now rand
      (useUp env { s with lastTriggerDatetime := some (env.clock.wall now) })).jsonMap "command" =
        value s.jsonMap "command" := by
    rw [randomizeAgain_jsonMap, command_useUp]
  unfold trigger runCommand
  rw [hvalue]
  simp only
  rw [if_neg (by simp [hcommand])]
  have hempty : (value (value s.jsonMap "command").toMap "method").toString
      env.qt = [] ∨ (value (value s.jsonMap "command").toMap
        "address").toString env.qt = [] := by
    by_contra hboth
    rw [not_or] at hboth
    exact hnone ⟨hcommand, hboth.1, hboth.2⟩
  rw [if_pos (or_assoc.mp (.inl hempty))]

theorem visit_serve_recurring {command : Option Command}
    (h : visit env now rand s = .serve s' command) (hnormal : s'.state = .normal)
    (hcommand : isCommand (value s.jsonMap "command").toMap = true)
    (hturn : ¬ LosesTurn env now s) : s'.recurring = s.recurring := by
  obtain ⟨hdue, htriggered⟩ := visit_serve h
  rcases htriggered with hdeleted | ⟨spent, d, hspent, -, rfl⟩
  · rw [hnormal] at hdeleted
    cases hdeleted
  · cases hspent with
    | disabled => rfl
    | weekly => rfl
    | rearmed htype hmore =>
      show s.recurring - 1 = s.recurring
      by_contra hlost
      have hpart := hdue.2
      rw [htype] at hpart
      obtain ⟨hpast, hlate⟩ := hpart
      refine hturn ⟨hdue.1, htype, by omega, hpast, ?_⟩
      rw [if_neg (by omega)]
      by_contra hnone
      have hmap := command_turnTaken env now s
      have hdeleted := trigger_deleted now rand (hmap.symm ▸ hcommand)
        (fun hhas => hnone ((command_of_map env hmap).1.mp hhas))
      rw [visit_of_isDue hdue, Visit.serve.injEq] at h
      rw [h.1] at hdeleted
      cases hnormal.symm.trans hdeleted

variable (finite) in
/-- **A visit** keeps a schedule stored. -/
theorem visit_stored (hvisit : visit env now rand s = .pass s' ∨ ∃ command, visit env now rand s =
      .serve s' command)
    (hnormal : s'.state = .normal) :
    s.state = .normal ∧ s'.name = s.name ∧
      (Stored env finite s → ¬ LosesTurn env now s → Stored env finite s') := by
  rcases hvisit with hpass | ⟨command, hserve⟩
  · have hrecurring := visit_pass_recurring hpass hnormal
    rcases visit_pass hpass with rfl | hdeleted | ⟨e, r, rfl, -⟩
    · exact ⟨hnormal, rfl, fun h _ => h⟩
    · rw [hnormal] at hdeleted
      cases hdeleted
    · exact ⟨hnormal, rfl, fun h hturn => h.toMapped.disable.of_same e r
        s.lastTriggerDatetime s.datetime (hrecurring hturn)⟩
  · have hrecurring := visit_serve_recurring hserve hnormal
    obtain ⟨-, htriggered⟩ := visit_serve hserve
    rcases htriggered with hdeleted | ⟨spent, d, hspent, -, rfl⟩
    · rw [hnormal] at hdeleted
      cases hdeleted
    · cases hspent with
      | disabled =>
        exact ⟨hnormal, rfl, fun h _ => h.toMapped.disable.of_same s.endtime s.recurring
          (some (env.clock.wall now)) d rfl⟩
      | rearmed =>
        exact ⟨hnormal, rfl, fun h hturn => h.of_same _ _ (some (env.clock.wall now)) d
          (hrecurring (isCommand_of_readCommand (h.fields .command).1) hturn)⟩
      | weekly =>
        exact ⟨hnormal, rfl, fun h _ => h.of_same s.endtime s.recurring
          (some (env.clock.wall now)) d rfl⟩

end ticks

/-! ## Runs -/

section runs

variable {env finite} {sys : ScheduleSystem D}

theorem isOther_of_kept {before after : List (Schedule D)}
    (hkept : ∀ (i : Nat) (s' : Schedule D), after[i]? = some s' → s'.state = .normal →
      ∃ s, before[i]? = some s ∧ s.state = .normal ∧ s.name = s'.name)
    {j : Nat} {name : QString} (h : IsOther after j name) : IsOther before j name := by
  obtain ⟨i, s', hij, hs', hnormal, hname⟩ := h
  obtain ⟨s, hs, hnormal', hsame⟩ := hkept i s' hs' hnormal
  exact ⟨i, s, hij, hs, hnormal', hsame.trans hname⟩

variable {rand : Nat}

theorem tick_visit {j : Nat} {s s' : Schedule D} (hs : sys.schedules[j]? = some s)
    (hs' : (step env sys (.tick rand)).schedules[j]? = some s') :
    s' = s ∨ (¬ ∃ i < j, ∃ t, sys.schedules[i]? = some t ∧ IsDue env sys.nextTick t) ∧
      (visit env sys.nextTick rand s = .pass s' ∨ ∃ command, visit env sys.nextTick rand s =
        .serve s' command) := by
  have hafter : (serveFirst (visit env sys.nextTick rand) sys.schedules).1[j]? = some s' := hs'
  by_cases hfront : ∃ i < j, ∃ t, sys.schedules[i]? = some t ∧ IsDue env sys.nextTick t
  · left
    obtain ⟨i, hij, t, ht, hdue⟩ := hfront
    have hserved : (visit env sys.nextTick rand t).IsServed := visit_isServed_iff.mpr hdue
    have hkept := (serveFirst_behind ⟨i, hij, t, ht, hserved⟩).1
    rw [hafter, hs, Option.some.injEq] at hkept
    exact hkept
  · right
    refine ⟨hfront, ?_⟩
    have hnone : ∀ i < j, ∀ t, sys.schedules[i]? = some t →
        ¬ (visit env sys.nextTick rand t).IsServed :=
      fun i hi t ht hserved => hfront ⟨i, hi, t, ht, visit_isServed_iff.mp hserved⟩
    cases hvisit : visit env sys.nextTick rand s with
    | pass x =>
      have hget := (serveFirst_passed hs hnone hvisit).1
      rw [hafter, Option.some.injEq] at hget
      exact .inl (by rw [hget])
    | serve x command =>
      have hget := (serveFirst_served hs hnone hvisit).1
      rw [hafter, Option.some.injEq] at hget
      exact .inr ⟨command, by rw [hget]⟩

theorem tick_stored (hall : AllStored env finite sys.schedules)
    (hok : Persists env finite sys (.tick rand)) :
    AllStored env finite (step env sys (.tick rand)).schedules := by
  have hkept : ∀ (i : Nat) (s' : Schedule D), (step env sys (.tick rand)).schedules[i]? = some s' →
      s'.state = .normal → ∃ s, sys.schedules[i]? = some s ∧ s.state = .normal ∧ s.name = s'.name ∧
        (Stored env finite s → Stored env finite s') := by
    intro i s' hs' hnormal
    obtain ⟨s, hs⟩ := tick_get env hs'
    rcases tick_visit hs hs' with rfl | ⟨hfront, hvisit⟩
    · exact ⟨s', hs, hnormal, rfl, id⟩
    · obtain ⟨hnormal', hname, hstored⟩ := visit_stored finite hvisit hnormal
      have hturn : ¬ LosesTurn env sys.nextTick s := fun hloses => hfront (hok i s hs hloses)
      exact ⟨s, hs, hnormal', hname.symm, fun h => hstored h hturn⟩
  intro j s' hs' hnormal
  obtain ⟨s, hs, hnormal', hname, hstored⟩ := hkept j s' hs' hnormal
  obtain ⟨hold, hother⟩ := hall j s hs hnormal'
  refine ⟨hstored hold, fun h => hother ?_⟩
  rw [hname]
  refine isOther_of_kept (fun i t ht ht' => ?_) h
  obtain ⟨x, hx, hx', hsame, -⟩ := hkept i t ht ht'
  exact ⟨x, hx, hx', hsame⟩

theorem create_stored {ms : Fin 1000} {content : QString}
    (hall : AllStored env finite sys.schedules)
    (hok : Persists env finite sys (.create ms rand content)) :
    AllStored env finite (step env sys (.create ms rand content)).schedules := by
  have hlist : (step env sys (.create ms rand content)).schedules = sys.schedules ++
      (created env sys.schedules (sys.at ms) rand content).toList :=
    createSchedule_schedules env sys.schedules (sys.at ms) rand content
  rw [hlist]
  cases hnew : created env sys.schedules (sys.at ms) rand content with
  | none =>
    rw [Option.toList_none, append_nil]
    exact hall
  | some new =>
    obtain ⟨hstored, hname⟩ := created_stored hnew (hok (by rw [hnew]; simp))
    rw [Option.toList_some]
    have hget : ∀ i s, (sys.schedules ++ [new])[i]? = some s →
        (i < sys.schedules.length ∧ sys.schedules[i]? = some s) ∨
          (i = sys.schedules.length ∧ s = new) := by
      intro i s hs
      by_cases hi : i < sys.schedules.length
      · rw [List.getElem?_append_left hi] at hs
        exact .inl ⟨hi, hs⟩
      · rw [List.getElem?_append_right (by omega), List.getElem?_singleton] at hs
        split at hs
        · exact .inr ⟨by omega, (Option.some.inj hs).symm⟩
        · cases hs
    intro j s hs hnormal
    rcases hget j s hs with ⟨-, hbefore⟩ | ⟨rfl, rfl⟩
    · obtain ⟨hold, hother⟩ := hall j s hbefore hnormal
      refine ⟨hold, ?_⟩
      rintro ⟨i, t, hij, ht, htnormal, hsame⟩
      rcases hget i t ht with ⟨-, ht⟩ | ⟨-, rfl⟩
      · exact hother ⟨i, t, hij, ht, htnormal, hsame⟩
      · exact hname s (mem_of_getElem? hbefore) hsame.symm
    · refine ⟨hstored, ?_⟩
      rintro ⟨i, t, hij, ht, htnormal, hsame⟩
      rcases hget i t ht with ⟨-, ht⟩ | ⟨rfl, -⟩
      · exact hname t (mem_of_getElem? ht) hsame
      · exact hij rfl

theorem update_stored {ms : Fin 1000} {id content : QString}
    (hall : AllStored env finite sys.schedules)
    (hok : Persists env finite sys (.update ms rand id content)) :
    AllStored env finite (step env sys (.update ms rand id content)).schedules := by
  show AllStored env finite
    (setScheduleAttributes env sys.schedules (sys.at ms) rand id content).1
  rw [setScheduleAttributes_schedules]
  cases htarget : target env sys.schedules id content with
  | none => exact hall
  | some found =>
    obtain ⟨i, s, map⟩ := found
    obtain ⟨hs, hnormal, -, hmap⟩ := target_some env htarget
    obtain ⟨hold, hother⟩ := hall i s hs hnormal
    have hkept := hok i s map htarget
    have hstored : Stored env finite (updateSchedule env id (sys.at ms) rand map s).1 :=
      updated_stored hold (hmap ▸ parsed_content env.qt content) hkept
    obtain ⟨hname, -⟩ := updated_name env id (sys.at ms) rand map s
    -- its name is its own, before and behind the request
    have hown : ¬ IsOther sys.schedules i
        (updateSchedule env id (sys.at ms) rand map s).1.name := by
      rw [hname]
      rcases setAttributes_name env id map s with hsame | ⟨v, htaken, hnew⟩
      · rw [hsame]
        exact hother
      · rw [hnew]
        exact (hkept.name v htaken).2
    show AllStored env finite
      (sys.schedules.set i (updateSchedule env id (sys.at ms) rand map s).1)
    generalize (updateSchedule env id (sys.at ms) rand map s).1 = new at hstored hown ⊢
    intro j s' hs' hnormal'
    have hlt := (List.getElem?_eq_some_iff.mp hs).1
    by_cases hj : i = j
    · subst hj
      rw [List.getElem?_set_self hlt, Option.some.injEq] at hs'
      subst hs'
      refine ⟨hstored, ?_⟩
      rintro ⟨k, t, hki, ht, htnormal, hsame⟩
      rw [List.getElem?_set_ne (Ne.symm hki)] at ht
      exact hown ⟨k, t, hki, ht, htnormal, hsame⟩
    · rw [List.getElem?_set_ne hj] at hs'
      obtain ⟨hold', hother'⟩ := hall j s' hs' hnormal'
      refine ⟨hold', ?_⟩
      rintro ⟨k, t, hkj, ht, htnormal, hsame⟩
      by_cases hk : i = k
      · subst hk
        rw [List.getElem?_set_self hlt, Option.some.injEq] at ht
        subst ht
        exact hown ⟨j, s', Ne.symm hj, hs', hnormal', hsame.symm⟩
      · rw [List.getElem?_set_ne hk] at ht
        exact hother' ⟨k, t, hkj, ht, htnormal, hsame⟩

theorem delete_stored {id : QString} (hall : AllStored env finite sys.schedules) :
    AllStored env finite (step env sys (.delete id)).schedules := by
  have hkept : ∀ (i : Nat) (s' : Schedule D), (deleteSchedule env sys.schedules id).1[i]? = some s' →
      s'.state = .normal → sys.schedules[i]? = some s' := by
    intro i s' hs' hnormal
    rcases deleteSchedule_schedules env sys.schedules id with hsame | ⟨k, hdeleted⟩
    · rw [hsame] at hs'
      exact hs'
    · rw [hdeleted, List.getElem?_modify] at hs'
      by_cases hk : k = i
      · simp only [hk, if_true, Option.map_eq_map, Option.map_eq_some_iff] at hs'
        obtain ⟨s, -, rfl⟩ := hs'
        cases hnormal
      · simpa only [hk, if_false, Option.map_eq_map, Option.map_id'] using hs'
  intro j s hs hnormal
  obtain ⟨hold, hother⟩ := hall j s (hkept j s hs hnormal) hnormal
  exact ⟨hold, fun h => hother (isOther_of_kept
    (fun i t ht ht' => ⟨t, hkept i t ht ht', ht', rfl⟩) h)⟩

/-- **One step** that meets the condition keeps all schedules stored. -/
theorem step_stored {act : Action} (hall : AllStored env finite sys.schedules)
    (hok : Persists env finite sys act) : AllStored env finite (step env sys act).schedules := by
  cases act with
  | tick rand => exact tick_stored hall hok
  | create ms rand content => exact create_stored hall hok
  | update ms rand id content => exact update_stored hall hok
  | delete id => exact delete_stored hall

end runs

/-- `greenwich`, where numbers have signs -/
def wholeGreenwich : ScheduleEnv Int := { greenwich with qt := Json.wholeQt }

def namedBody (time : String) : QString :=
  ["\x7b\"command\":", "\x7b\"address\":\"/api/k/lights/1/state\",", "\"body\":\x7b\x7d,",
    "\"method\":\"PUT\"\x7d,", "\"name\":\"a\",", "\"time\":\"", time, "\"\x7d"].flatMap ofLatin1

def oneTurnRun : List Action :=
  [.create 0 0 (namedBody "PT00:00:01"), .tick 0, .tick 0]

theorem createKept_oneTurn (now : Int) : CreateKept wholeGreenwich (fun _ => True) []
    now (parseContent wholeGreenwich.qt (namedBody "PT00:00:01")).1.toMap where
  name := ⟨ofLatin1 "a", by decide +kernel, by decide, by decide, ⟨['a'], rfl⟩, by simp⟩
  description := repair_eq_self_iff.mp (by decide +kernel)
  commandKeys := by decide +kernel
  numbers := Json.every_of_forall (fun _ => trivial) (fun _ => trivial) (fun _ => trivial)
    (fun _ => trivial) _
  time := by decide +kernel

theorem persists_tick {sys : ScheduleSystem Int} (rand : Nat)
    (h : sys.schedules.all (fun s => decide (s.recurring < 2)) = true) :
    Persists wholeGreenwich (fun _ => True) sys (.tick rand) := by
  intro j s hs hloses
  have hfew := of_decide_eq_true (all_eq_true.mp h s (mem_of_getElem? hs))
  exact absurd hloses.2.2.1 (by omega)

theorem oneTurn_states :
    (triggered wholeGreenwich (stateAt (step wholeGreenwich) ⟨0, []⟩ oneTurnRun 1)
        (.tick 0)).map Prod.fst = some 0 ∧
      (stateAt (step wholeGreenwich) ⟨0, []⟩ oneTurnRun 1).schedules.all
        (fun s => decide (s.recurring < 2)) = true ∧
      (stateAt (step wholeGreenwich) ⟨0, []⟩ oneTurnRun 2).schedules.all
        (fun s => decide (s.recurring < 2)) = true := by
  decide +kernel

theorem persists_oneTurn : AllSteps (step wholeGreenwich)
    (Persists wholeGreenwich fun _ => True) ⟨0, []⟩ oneTurnRun := by
  refine allSteps_of_cons (fun _ => createKept_oneTurn _) ?_
  refine allSteps_of_cons (persists_tick 0 oneTurn_states.2.1) ?_
  exact allSteps_of_cons (persists_tick 0 oneTurn_states.2.2) (allSteps_nil _ _ _)

def twoTurnsRun : List Action := [.create 0 0 (namedBody "R02/PT00:00:01"), .tick 0]

end Schedules
end DeconzRest
