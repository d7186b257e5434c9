import DeconzRest.Json.Octets
import DeconzRest.Json.Reread
import DeconzRest.Schedule.Served

/-!
# What a schedule is behind a restart

The database keeps the text of a schedule, which `jsonToSchedule` reads when the gateway
starts.  A schedule survives (`Survives`) when its text is that of its map, and what is read
in it has the fields of the schedule.

The type, the weekdays and the turns that are left are the `Kind` of a schedule;
`jsonToSchedule` and `setScheduleAttributes` change it as `Kind.set` says, where the second
drops the seconds of a `PT` text.  `Mapped` is what the fields have to do with the map, and
`survives_of_mapped` is why it is enough.
-/

namespace DeconzRest
namespace Schedules

open Option
open QVariant (value contains)
open QString RuleRequest
open Json (Parts Every Numbers)

variable {D : Type} (env : ScheduleEnv D)

/-- Both are one schedule, as far as a restart is asked to keep it. -/
structure SameSchedule (s s' : Schedule D) : Prop where
  name : s'.name = s.name
  description : s'.description = s.description
  command : s'.command = s.command
  status : s'.status = s.status
  activation : s'.activation = s.activation
  autodelete : s'.autodelete = s.autodelete
  type : s'.type = s.type
  weekBitmap : s'.weekBitmap = s.weekBitmap
  recurring : s'.recurring = s.recurring

/-- **A schedule survives a restart**: its text is that of its map, and is read as the same
schedule.  Schedules that are loaded before it have the names `others`, and it is read at any
time and with any random number. -/
def Survives (others : QString → Prop) (s : Schedule D) : Prop :=
  s.jsonString = jsonText env s.jsonMap ∧
    ∀ (loaded : List (Schedule D)) (now : Int) (rand : Nat), (∀ t ∈ loaded, others t.name) →
      ∃ s', jsonToSchedule env loaded now rand false s.jsonString { id := s.id } = .ok s' ∧
        SameSchedule s s'

/-! ## The kind of a schedule -/

/-- The type, the weekdays and the turns that are left -/
structure Kind where
  type : ScheduleType := .invalid
  weekBitmap : UInt8 := 0
  recurring : Nat := 0
deriving DecidableEq

def kind (s : Schedule D) : Kind := ⟨s.type, s.weekBitmap, s.recurring⟩

def Kind.timer (seconds recurring : Nat) (k : Kind) : Kind :=
  { k with
    type := if 0 < seconds then .timer else k.type
    recurring := recurring }

def Kind.set (clock : SystemClock) (time : QString) (read : TimeText) (randomMax : Nat)
    (k : Kind) : Kind :=
  match read with
  | .repeating times t => k.timer (t.total + randomMax) times
  | .timer t => k.timer (t.total + randomMax) 1
  | .weekly weekBitmap _ => { k with type := .recurringTime, weekBitmap := weekBitmap }
  | .weeklyRandom | .unmatched => k
  | .absolute =>
    if (clock.fromIso time).isSome = true then { k with type := .absoluteTime } else k

/-- `setScheduleAttributes` reads no seconds in a `PT` text. -/
def TimeText.dropSeconds : TimeText → TimeText
  | .timer t => .timer { t with seconds := 0 }
  | read => read

/-- The kind that `jsonToSchedule` reads in a text; no type when it refuses the text. -/
def textKind (clock : SystemClock) (text : QString) : Kind :=
  if text = [] then
    {}
  else
    match cutRandom clock text with
    | none => {}
    | some (time, randomMax) => ({} : Kind).set clock time (readTime clock time) randomMax

/-- The kind that `setScheduleAttributes` makes of a kind and a text -/
def movedKind (clock : SystemClock) (text : QString) (k : Kind) : Kind :=
  match cutRandom clock text with
  | none => k
  | some (time, randomMax) => k.set clock time (readTime clock time).dropSeconds randomMax

section kind

variable (now : Int) (rand : Nat)

theorem kind_startTimer (timeSpec : TimeSpec) (seconds recurring randomMax : Nat)
    (s : Schedule D) : kind (startTimer env now timeSpec
      ((seconds + randomTime randomMax rand : Nat) : Int) recurring s) =
        (kind s).timer (seconds + randomMax) recurring := by
  have hrandom := randomTime_pos_iff randomMax rand
  have hpos : (0 : Int) < ((seconds + randomTime randomMax rand : Nat) : Int) ↔ 0 < seconds +
      randomMax := by omega
  simp only [kind, startTimer, Kind.timer, hpos]

theorem kind_startTime (timeSpec : TimeSpec) (time : QString) (randomMax : Nat)
    (s : Schedule D) : kind (startTime env now timeSpec time randomMax rand s) =
      (kind s).set env.clock time (readTime env.clock time) randomMax := by
  unfold startTime Kind.set
  cases readTime env.clock time with
  | repeating times t => exact kind_startTimer env now rand timeSpec t.total times randomMax s
  | timer t => exact kind_startTimer env now rand timeSpec t.total 1 randomMax s
  | weekly | weeklyRandom | unmatched => rfl
  | absolute =>
    simp only [startAbsolute, absoluteDatetime, isSome_map, kind]
    split <;> rfl

variable {env now rand} in
theorem kind_moveTime {timeSpec : TimeSpec} {time : QString} {randomMax : Nat}
    {map : List (QString × QVariant D)} {s s' : Schedule D}
    (h : moveTime env now timeSpec time randomMax rand map s = .ok s') :
    kind s' = (kind s).set env.clock time (readTime env.clock time).dropSeconds randomMax := by
  unfold moveTime at h
  unfold Kind.set TimeText.dropSeconds
  cases hread : readTime env.clock time with
  | repeating times t =>
    rw [hread] at h
    cases h
    exact kind_startTimer env now rand timeSpec t.total times randomMax s
  | timer t =>
    rw [hread] at h
    cases h
    exact kind_startTimer env now rand timeSpec ({ t with seconds := 0 } : Hms).total 1 randomMax s
  | weekly | weeklyRandom =>
    rw [hread] at h
    cases h
    rfl
  | unmatched =>
    rw [hread] at h
    cases h
  | absolute =>
    rw [hread] at h
    simp only [absoluteDatetime] at h
    cases hiso : env.clock.fromIso time with
    | some w =>
      rw [hiso] at h
      cases h
      simp [kind, moveAbsolute]
    | none =>
      rw [hiso, map_none] at h
      simp only at h
      split at h <;> cases h

theorem Kind.set_type {clock : SystemClock} {time : QString} {read : TimeText} {randomMax : Nat}
    {k : Kind} (h : k.type ≠ .invalid) : (k.set clock time read randomMax).type ≠ .invalid := by
  unfold Kind.set Kind.timer
  cases read with
  | repeating | timer =>
    simp only
    split
    · simp
    · exact h
  | weekly => simp
  | weeklyRandom | unmatched => exact h
  | absolute =>
    simp only
    split
    · simp
    · exact h

end kind

/-! ## What `jsonToSchedule` makes of a map -/

section reading

theorem startTime_parameters (now : Int) (timeSpec : TimeSpec) (time : QString)
    (randomMax rand : Nat) (s : Schedule D) :
    (startTime env now timeSpec time randomMax rand s).name = s.name ∧
      (startTime env now timeSpec time randomMax rand s).description = s.description ∧
      (startTime env now timeSpec time randomMax rand s).command = s.command ∧
      (startTime env now timeSpec time randomMax rand s).status = s.status ∧
      (startTime env now timeSpec time randomMax rand s).activation = s.activation ∧
      (startTime env now timeSpec time randomMax rand s).autodelete = s.autodelete := by
  unfold startTime
  cases readTime env.clock time <;> exact ⟨rfl, rfl, rfl, rfl, rfl, rfl⟩

variable {map : List (QString × QVariant D)}

theorem contains_of_text? {key : String} {text : QString} (h : QVariant.text? map key = some text) :
    contains map key = true := by
  unfold QVariant.text? value at h
  unfold contains
  cases hlookup : map.lookup (ofLatin1 key) with
  | none =>
    rw [hlookup] at h
    cases h
  | some v => rfl

theorem contains_of_readTimes (h : (readTimes map).1 ≠ []) :
    contains map "time" = true ∨ contains map "localtime" = true := by
  unfold readTimes at h
  cases hlocal : QVariant.text? map "localtime" with
  | some text => exact .inr (contains_of_text? hlocal)
  | none =>
    rw [hlocal] at h
    cases htime : QVariant.text? map "time" with
    | some text => exact .inl (contains_of_text? htime)
    | none =>
      rw [htime] at h
      exact absurd rfl h

variable {env} in
theorem contains_of_readCommand {command : QString} (h : readCommand env map = some command) :
    contains map "command" = true := by
  unfold readCommand value at h
  unfold contains
  cases hlookup : map.lookup (ofLatin1 "command") with
  | none =>
    rw [hlookup] at h
    cases h
  | some v => rfl

variable {env} in
/-- **What is read in a map** with a command and a time that has a type -/
theorem jsonToSchedule_of_kind (loaded : List (Schedule D)) (now : Int) (rand : Nat) (id : QString)
    {json command : QString} (hparse : parseContent env.qt json = (.map map, true))
    (hcommand : readCommand env map = some command)
    (hkind : (textKind env.clock (readTimes map).1).type ≠ .invalid) :
    ∃ s, jsonToSchedule env loaded now rand false json { id := id } = .ok s ∧ s.name =
      readName loaded map ∧ s.description = readDescription map ∧
      s.command = command ∧ s.status = readStatus map ∧ s.activation = readActivation map ∧
      s.autodelete = readAutodelete map ∧ kind s = textKind env.clock (readTimes map).1 := by
  have hcontains := contains_of_readCommand hcommand
  have hmap : map ≠ [] := by
    rintro rfl
    cases hcontains
  unfold textKind at hkind ⊢
  split at hkind
  · exact absurd rfl hkind
  · rename_i hempty
    have htimes := contains_of_readTimes hempty
    cases hcut : cutRandom env.clock (readTimes map).1 with
    | none =>
      rw [hcut] at hkind
      exact absurd rfl hkind
    | some cut =>
      obtain ⟨time, randomMax⟩ := cut
      rw [hcut] at hkind
      have hset := kind_startTime env now rand (readTimes map).2 time randomMax
        (readParameters loaded map command { id := id })
      obtain ⟨hname, hdescription, hcommand', hstatus, hactivation, hautodelete⟩ :=
        startTime_parameters env now (readTimes map).2 time randomMax rand
          (readParameters loaded map command { id := id })
      have htype : (startTime env now (readTimes map).2 time randomMax rand
          (readParameters loaded map command { id := id })).type ≠ .invalid := by
        have htypes := congrArg Kind.type hset
        exact fun hinvalid => hkind (htypes.symm.trans hinvalid)
      have hmap' : (QVariant.map map).toMap = map := rfl
      refine ⟨{ startTime env now (readTimes map).2 time randomMax rand
          (readParameters loaded map command { id := id }) with
        jsonString := jsonText env (keptMap env now false map)
        jsonMap := keptMap env now false map }, ?_, hname, hdescription, hcommand', hstatus,
          hactivation, hautodelete, ?_⟩
      · unfold jsonToSchedule
        simp only [hparse, hmap']
        rw [if_neg (by simp [hmap]), if_neg (not_not.mpr ⟨hcontains, htimes⟩), hcommand]
        simp only [if_neg hempty, hcut, if_neg htype]
      · rw [if_neg hempty]
        exact hset

end reading

/-! ## Written and read again -/

section readBack

variable (qt : Qt D)

/-- The map that is read in the text of a map -/
def readBack (map : List (QString × QVariant D)) : List (QString × QVariant D) :=
  Json.rereadEntries repair qt map []

variable {qt} {map : List (QString × QVariant D)} (hmap : Every Parts.parsed (.map map))
include hmap

variable {key : String}

theorem lookup_readBack (hkey : (ofLatin1 key).all isPlain = true) :
    (readBack qt map).lookup (ofLatin1 key) =
      (map.lookup (ofLatin1 key)).map (Json.reread repair qt) := by
  rw [Every] at hmap
  rw [readBack, Json.lookup_rereadEntries qt (fun k => repair_eq_iff hkey) hmap.2]
  exact Option.or_none

theorem contains_readBack (hkey : (ofLatin1 key).all isPlain = true) :
    contains (readBack qt map) key = contains map key := by
  unfold contains
  rw [lookup_readBack hmap hkey, isSome_map]

theorem value_readBack (hkey : (ofLatin1 key).all isPlain = true) :
    value (readBack qt map) key = Json.reread repair qt (value map key) := by
  unfold value
  rw [lookup_readBack hmap hkey]
  cases map.lookup (ofLatin1 key) with
  | none => rw [map_none, getD_none, Json.reread]
  | some v => rfl

theorem text?_readBack (hkey : (ofLatin1 key).all isPlain = true) :
    QVariant.text? (readBack qt map) key = (QVariant.text? map key).map repair := by
  unfold QVariant.text?
  rw [value_readBack hmap hkey]
  cases value map key <;> rw [Json.reread] <;> rfl

theorem readDescription_readBack (hwell : WellFormed (readDescription map)) :
    readDescription (readBack qt map) = readDescription map := by
  unfold readDescription at hwell ⊢
  rw [text?_readBack hmap (by decide)]
  cases htext : QVariant.text? map "description" with
  | none => rfl
  | some text =>
    rw [htext] at hwell
    rw [map_some, filter_some, filter_some, length_repair]
    rw [filter_some] at hwell
    split
    · rename_i hshort
      rw [if_pos hshort] at hwell
      exact hwell.repair_eq
    · rfl

theorem readChoice_readBack {key first second : String} (hkey : (ofLatin1 key).all isPlain = true)
    (hfirst : (ofLatin1 first).all isPlain = true)
    (hsecond : (ofLatin1 second).all isPlain = true) :
    readChoice (readBack qt map) key first second = readChoice map key first second := by
  unfold readChoice
  rw [text?_readBack hmap hkey]
  cases QVariant.text? map key with
  | none => rfl
  | some text =>
    by_cases h1 : text = ofLatin1 first
    · have hsame : repair text = text := (repair_eq_iff (h1 ▸ hfirst)).mpr rfl
      rw [map_some, hsame]
    · by_cases h2 : text = ofLatin1 second
      · have hsame : repair text = text := (repair_eq_iff (h2 ▸ hsecond)).mpr rfl
        rw [map_some, hsame]
      · have h1' : repair text ≠ ofLatin1 first := fun h => h1 ((repair_eq_iff hfirst).mp h)
        have h2' : repair text ≠ ofLatin1 second := fun h => h2 ((repair_eq_iff hsecond).mp h)
        simp [Option.filter, h1, h2, h1', h2']

theorem readAutodelete_readBack : readAutodelete (readBack qt map) = readAutodelete map := by
  unfold readAutodelete
  rw [value_readBack hmap (by decide)]
  cases value map "autodelete" <;> rw [Json.reread]

theorem readTimes_readBack : (readTimes (readBack qt map)).1 = repair (readTimes map).1 := by
  unfold readTimes
  rw [text?_readBack hmap (by decide), text?_readBack hmap (by decide)]
  cases QVariant.text? map "localtime" with
  | some text => rfl
  | none =>
    cases QVariant.text? map "time" with
    | some text => rfl
    | none => exact (repair_eq_nil_iff.mpr rfl).symm

theorem isCommand_readBack : isCommand (readBack qt map) = isCommand map := by
  have hne : ∀ m : List (QString × QVariant D), contains m "address" = true → m.isEmpty =
      false := by
    intro m h
    cases m with
    | nil => cases h
    | cons e m => rfl
  have hcontains : ∀ m : List (QString × QVariant D), isCommand m =
      (contains m "address" && contains m "method" && contains m "body") := by
    intro m
    unfold isCommand
    cases h : contains m "address" with
    | false => simp
    | true => simp [hne m h]
  rw [hcontains, hcontains, contains_readBack hmap (by decide), contains_readBack hmap (by decide),
    contains_readBack hmap (by decide)]

end readBack

/-- The keys stay in order when unpaired surrogates are replaced. -/
def KeysInOrder (v : QVariant D) : Prop :=
  Every { keys := fun keys => (keys.map repair).Pairwise (· < ·) } v

instance (v : QVariant D) : Decidable (KeysInOrder v) :=
  have : DecidablePred fun keys : List QString => (keys.map repair).Pairwise (· < ·) :=
    fun _ => inferInstanceAs (Decidable (List.Pairwise _ _))
  Json.decideEvery _ v

section numbers

variable {env} {finite : D → Prop} (hqt : Numbers env.qt finite)
include hqt

theorem jsonText_eq_text (map : List (QString × QVariant D)) :
    jsonText env map = Json.text repair env.qt (.map map) :=
  Json.fromUtf8_serialize (Json.written_of_numbers hqt (.map map))

theorem jsonText_readBack {cmd : List (QString × QVariant D)}
    (hcmd : Every Parts.parsed (.map cmd)) (hkeys : KeysInOrder (.map cmd)) :
    jsonText env (readBack env.qt cmd) = jsonText env cmd := by
  have hboth : Every { int := fun _ => False,
                       keys := fun keys => (keys.map repair).Pairwise (· < ·) } (.map cmd) :=
    hcmd.both hkeys (fun _ h _ => h) (fun _ _ _ => trivial) (fun _ _ _ => trivial)
      fun _ _ h => h
  rw [jsonText_eq_text hqt, jsonText_eq_text hqt]
  have hsame := Json.text_reread env.qt (fun s => (wellFormed_repair s).repair_eq) hboth
  rwa [Json.reread] at hsame

theorem readCommand_readBack {map : List (QString × QVariant D)}
    (hmap : Every Parts.parsed (.map map)) (hkeys : KeysInOrder (value map "command")) :
    readCommand env (readBack env.qt map) = readCommand env map := by
  have hvalue := hmap.value "command"
  unfold readCommand
  rw [value_readBack hmap (by decide)]
  change Every Parts.parsed (value map "command") at hvalue
  cases hv : value map "command" with
  | map cmd =>
    rw [hv] at hvalue hkeys
    rw [Json.reread]
    simp only
    rw [← readBack, isCommand_readBack hvalue, jsonText_readBack hqt hvalue hkeys]
  | invalid | bool | int | double | string | list =>
    rw [Json.reread]

/-- **The text of a map is read as the map that comes back.** -/
theorem parseContent_jsonText {map : List (QString × QVariant D)}
    (hfinite : Every (Parts.doubles finite) (.map map)) :
    parseContent env.qt (jsonText env map) = (.map (readBack env.qt map), true) := by
  have hread : Every (Parts.doubles (Json.ReadBack env.qt)) (.map map) :=
    hfinite.imp (fun _ h => h) (fun d hd => hqt.number_finite d hd) (fun _ h => h) fun _ h => h
  unfold parseContent
  rw [if_neg (jsonText_ne_nil env map)]
  unfold jsonText
  rw [Json.parse_serialize_readBack hread, Json.reread]
  rfl

end numbers

/-! ## The fields and the map -/

inductive Field where
  | name
  | description
  | command
  | status
  | activation
  | autodelete

def Field.key : Field → String
  | .name => "name"
  | .description => "description"
  | .command => "command"
  | .status => "status"
  | .activation => "activation"
  | .autodelete => "autodelete"

/-- The field is what is read in the map, and goes through its text. -/
def Field.Holds (map : List (QString × QVariant D)) (s : Schedule D) : Field → Prop
  | .name => QVariant.text? map "name" = some s.name ∧ s.name.length ≤ 32 ∧ WellFormed s.name
  | .description => readDescription map = s.description ∧ WellFormed s.description
  | .command => readCommand env map = some s.command ∧ KeysInOrder (value map "command")
  | .status => readStatus map = s.status
  | .activation => readActivation map = s.activation
  | .autodelete => readAutodelete map = s.autodelete

theorem Field.holds_congr {map map' : List (QString × QVariant D)} {f : Field}
    (h : value map' f.key = value map f.key) (s : Schedule D) :
    f.Holds env map' s ↔ f.Holds env map s := by
  cases f <;>
    simp only [Field.key] at h <;>
    simp only [Field.Holds, readDescription, readCommand, readStatus, readActivation,
      readAutodelete, readChoice, QVariant.text?, h]

/-- **The fields of a schedule are what is read in its map.** -/
structure FieldsMapped (finite : D → Prop) (s : Schedule D) : Prop where
  parsed : Every Parts.parsed (.map s.jsonMap)
  numbers : Every (Parts.doubles finite) (.map s.jsonMap)
  fields : ∀ f : Field, f.Holds env s.jsonMap s

/-- And its kind is that of the text that counts. -/
structure Mapped (finite : D → Prop) (s : Schedule D) : Prop extends
    FieldsMapped env finite s where
  kind : textKind env.clock (repair (readTimes s.jsonMap).1) = kind s
  valid : s.type ≠ .invalid

theorem readName_readBack {qt : Qt D} {map : List (QString × QVariant D)} {name : QString}
    (hmap : Every Parts.parsed (.map map)) (hname : QVariant.text? map "name" = some name)
    (hshort : name.length ≤ 32) (hwell : WellFormed name) {loaded : List (Schedule D)}
    (hnames : ∀ t ∈ loaded, t.name ≠ name) : readName loaded (readBack qt map) = name := by
  have hnone : loaded.any (fun t => t.name == name) = false := by
    rw [List.any_eq_false]
    intro t ht
    simpa using hnames t ht
  unfold readName
  rw [text?_readBack hmap (by decide), hname, map_some, hwell.repair_eq, filter_some,
    if_pos (decide_eq_true hshort)]
  simp [hnone]

/-- **A schedule whose fields are in its map survives.** -/
theorem survives_of_mapped {finite : D → Prop} (hqt : Numbers env.qt finite) {s : Schedule D}
    {others : QString → Prop} (h : Mapped env finite s)
    (htext : s.jsonString = jsonText env s.jsonMap) (hother : ¬ others s.name) :
    Survives env others s := by
  refine ⟨htext, ?_⟩
  intro loaded now rand hloaded
  have hnames : ∀ t ∈ loaded, t.name ≠ s.name := by
    intro t ht hsame
    exact hother (hsame ▸ hloaded t ht)
  obtain ⟨hname, hshort, hnameWell⟩ := h.fields .name
  obtain ⟨hdescription, hdescriptionWell⟩ := h.fields .description
  obtain ⟨hcommand, hkeys⟩ := h.fields .command
  have hback := (readCommand_readBack hqt h.parsed hkeys).trans hcommand
  have hkind : textKind env.clock (readTimes (readBack env.qt s.jsonMap)).1 = kind s := by
    rw [readTimes_readBack h.parsed]
    exact h.kind
  have hvalid : (textKind env.clock (readTimes (readBack env.qt s.jsonMap)).1).type ≠ .invalid := by
    rw [hkind]
    exact h.valid
  obtain ⟨s', hok, hname', hdescription', hcommand', hstatus', hactivation', hautodelete', hkind'⟩ :=
    jsonToSchedule_of_kind loaded now rand s.id
      (parseContent_jsonText hqt h.numbers) hback hvalid
  have hstatus : readStatus (readBack env.qt s.jsonMap) = readStatus s.jsonMap :=
    readChoice_readBack h.parsed (by decide) (by decide) (by decide)
  have hactivation : readActivation (readBack env.qt s.jsonMap) = readActivation s.jsonMap :=
    readChoice_readBack h.parsed (by decide) (by decide) (by decide)
  have hsame := hkind'.trans hkind
  refine ⟨s', htext ▸ hok, ?_⟩
  exact
    { name := hname'.trans (readName_readBack h.parsed hname hshort hnameWell hnames)
      description := by
        rw [hdescription', readDescription_readBack h.parsed (hdescription ▸ hdescriptionWell),
          hdescription]
      command := hcommand'
      status := hstatus'.trans (hstatus.trans (h.fields .status))
      activation := hactivation'.trans (hactivation.trans (h.fields .activation))
      autodelete := hautodelete'.trans
        ((readAutodelete_readBack h.parsed).trans (h.fields .autodelete))
      type := congrArg Kind.type hsame
      weekBitmap := congrArg Kind.weekBitmap hsame
      recurring := congrArg Kind.recurring hsame }

end Schedules
end DeconzRest
