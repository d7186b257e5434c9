import DeconzRest.Sensor.Storage

/-!
# Sensor items behind a restart

Each item of the state and the config is found in the map that is read, with the variant that was
made of it (`lookup_written`, `reread_toVariant`).  What `ResourceItem::setValue` makes of that is
the value of the item again, apart from what the format of a time has no place for
(`value_readState`, `value_readConfig`).
-/

namespace DeconzRest
namespace SensorStorage

open QString List
open Option (map_some some_ne_none)
open QDateTime (Format InRange cut fromString)
open Json (Parts Every Numbers ReadBack reread)

variable {D : Type}

/-! ## The map that is written -/

section written

variable {qt : Qt D} {clock : Clock} {front : QString}

def writtenMap (qt : Qt D) (clock : Clock) (front : QString) (items : List (Item D)) :
    List (QString × QVariant D) := items.foldl (putItem qt clock front) []

theorem eq_of_startsWith {s front : QString} (h : startsWith s front = true) :
    front ++ s.drop front.length = s := by
  obtain ⟨rest, rfl⟩ := isPrefixOf_iff_prefix.mp h
  rw [drop_left]

theorem sorted_writtenMap (items : List (Item D)) :
    ((writtenMap qt clock front items).map Prod.fst).Pairwise (· < ·) := by
  apply List.foldlRecOn items (putItem qt clock front)
    (motive := fun map => (map.map Prod.fst).Pairwise (· < ·)) List.Pairwise.nil
  intro map hmap item _
  unfold putItem
  split
  · exact Json.sorted_insert _ _ hmap
  · exact hmap

theorem keys_writtenMap (items : List (Item D)) :
    ∀ e ∈ writtenMap qt clock front items, repair e.1 = e.1 := by
  have hkeys : ∀ k ∈ (writtenMap qt clock front items).map Prod.fst, repair k = k := by
    apply List.foldlRecOn items (putItem qt clock front)
      (motive := fun map => ∀ k ∈ map.map Prod.fst, repair k = k)
    · exact fun k hk => absurd hk not_mem_nil
    · intro map hmap item _
      unfold putItem
      split
      · intro k hk
        rcases Json.keys_insert _ _ map k hk with rfl | hk
        · have hascii := all_eq_true.mp item.rid.ascii
          refine (wellFormed_of_ascii fun c hc => ?_).repair_eq
          exact of_decide_eq_true (hascii c (mem_of_mem_drop hc))
        · exact hmap k hk
      · exact hmap
  exact fun e he => hkeys e.1 (mem_map_of_mem he)

variable {items : List (Item D)}

theorem every_writtenMap
    (h : ∀ item ∈ items, Every (Parts.doubles (ReadBack qt)) (toVariant qt clock item)) :
    Every (Parts.doubles (ReadBack qt)) (.map (writtenMap qt clock front items)) := by
  refine ⟨?_, trivial⟩
  apply List.foldlRecOn items (putItem qt clock front)
    (motive := Json.EveryEntry (Parts.doubles (ReadBack qt)))
  · exact trivial
  · intro map hmap item hmem
    unfold putItem
    split
    · exact Json.everyEntry_insert trivial (h item hmem) hmap
    · exact hmap

/-- **Each item is in the map**, since no other one has its name. -/
theorem lookup_writtenMap (hdistinct : (items.map fun item => item.rid.suffix).Nodup)
    {item : Item D} (hmem : item ∈ items) (hfront : startsWith item.rid.suffix front = true)
    :
    (writtenMap qt clock front items).lookup (item.rid.suffix.drop front.length) =
      some (toVariant qt clock item) := by
  obtain ⟨before, after, rfl⟩ := append_of_mem hmem
  unfold writtenMap
  rw [foldl_append, foldl_cons]
  have hself : (putItem qt clock front (before.foldl (putItem qt clock front) []) item).lookup
      (item.rid.suffix.drop front.length) = some (toVariant qt clock item) := by
    rw [putItem, if_pos hfront, Json.lookup_insert, if_pos rfl]
  have hothers : ∀ other ∈ after, item.rid.suffix ≠ other.rid.suffix := by
    rw [map_append, map_cons, nodup_append, nodup_cons] at hdistinct
    intro other hother hsame
    exact hdistinct.2.1.1 (by rw [hsame]; exact mem_map_of_mem hother)
  apply List.foldlRecOn after (putItem qt clock front)
    (motive := fun map => map.lookup (item.rid.suffix.drop front.length) =
      some (toVariant qt clock item)) hself
  intro map hmap other hother
  unfold putItem
  split
  · rename_i hfront'
    rw [Json.lookup_insert, if_neg ?_]
    · exact hmap
    · intro hkey
      apply hothers other hother
      rw [← eq_of_startsWith hfront, ← eq_of_startsWith hfront', hkey]
  · exact hmap

/-- **The map that is read**: the written one, behind UTF-8. -/
theorem parse_itemsToString
    (h : ∀ item ∈ items, Every (Parts.doubles (ReadBack qt)) (toVariant qt clock item)) :
    Json.parse qt (itemsToString qt clock front items) =
      (.map ((writtenMap qt clock front items).map fun e =>
        (e.1, reread repair qt e.2)), true) := by
  unfold itemsToString
  rw [← writtenMap, Json.parse_serialize_readBack (every_writtenMap h), reread,
    Json.rereadEntries_nil qt (keys_writtenMap items) (sorted_writtenMap items)]

end written

/-! ## Values -/

/-- What Qt documents of `QVariant`: a `double` holds an `int`, and the conversions give back what
was put in. -/
structure Variants (qt : Qt D) (toDouble : QVariant D → Option D) (finite : D → Prop) : Prop where
  finite : ∀ n : Int, -2 ^ 31 ≤ n → n < 2 ^ 31 → finite (qt.ofInt n)
  toInt : ∀ n : Int, -2 ^ 31 ≤ n → n < 2 ^ 31 → qt.toInt (.double (qt.ofInt n)) = some n
  toDouble : ∀ d, toDouble (.double d) = some d
  toBool : ∀ b, qt.toBool (.bool b) = b

/-- What is known of times: `QDateTime` takes a local time to be one at which the clock shows it,
and in ISO 8601 a text with a `Z` is UTC and one without is local time. -/
structure Clock.Documented (clock : Clock) : Prop where
  wall_fromLocal : ∀ t, QDateTime.wall clock.zone
    (clock.fromLocal (QDateTime.wall clock.zone t)) = QDateTime.wall clock.zone t
  iso_utc : ∀ format wall, format = .seconds ∨ format = .milliseconds → InRange wall →
    clock.fromIso8601 (QDateTime.toString format wall ++ [unit 'Z']) = cut format wall
  iso_local : ∀ wall, InRange wall → clock.fromIso8601 (QDateTime.toString .seconds wall) =
    clock.fromLocal (cut .seconds wall)

/-- A time that can be written: it is after the epoch and in a year of four digits, and if it is
written as a local time, the clock shows its second only once. -/
structure Clock.Writable (clock : Clock) (suffix : QString) (t : Int) : Prop where
  pos : 0 < t
  inRange : InRange (clock.wall (timeFormat suffix).2 t)
  once : (timeFormat suffix).2 = .localTime → ∀ t', QDateTime.wall clock.zone t' =
    QDateTime.wall clock.zone (cut .seconds t) → t' = cut .seconds t

/-- What an item of its type holds after it was set: a text is trimmed, an integer is one of the
valid range that is an `int`. -/
def Valid (finite : D → Prop) (clock : Clock) (item : Item D) : Prop :=
  match item.rid.type with
  | .string | .timePattern =>
    trimmed item.str = item.str ∧ QString.WellFormed item.str
  | .bool => item.num = 0 ∨ item.num = 1
  | .time => clock.Writable item.rid.suffix item.num
  | .real => finite item.real
  | _ => (-2 ^ 31 ≤ item.num ∧ item.num < 2 ^ 31) ∧ inRange item.rid item.num

inductive Value (D : Type) where
  | number (n : Int)
  | real (d : D)
  | text (s : QString)
deriving DecidableEq

def value (item : Item D) : Value D :=
  match item.rid.type with
  | .string | .timePattern => .text item.str
  | .real => .real item.real
  | _ => .number item.num

/-- The value of an item as it is written: a time as far as its format tells times apart -/
def writtenValue (item : Item D) : Value D :=
  match item.rid.type with
  | .time => .number (cut (timeFormat item.rid.suffix).1 item.num)
  | _ => value item

def unset (qt : Qt D) (item : Item D) : Item D :=
  { rid := item.rid, num := 0, real := qt.ofInt 0, str := [], lastSet := none }

@[simp] theorem rid_unset (qt : Qt D) (item : Item D) : (unset qt item).rid = item.rid := rfl

section values

variable {qt : Qt D} {toDouble : QVariant D → Option D} {clock : Clock} {finite : D → Prop}

variable (item : Item D)

@[simp] theorem rid_setNumber (n : Int) : (setNumber clock item n).rid = item.rid := by
  unfold setNumber
  split <;> rfl

@[simp] theorem rid_setTime (val : Entry D) : (setTime clock item val).rid = item.rid := by
  unfold setTime
  split
  · split
    · rfl
    · simp only
      split <;> rfl
  · rfl
  · rfl

@[simp] theorem rid_setValue (val : Entry D) :
    (setValue qt toDouble clock item val).rid = item.rid := by
  unfold setValue
  split
  · rfl
  · split
    · rfl
    · rfl
    · rfl
    · exact rid_setTime item val
    · split <;> rfl
    · split
      · exact rid_setNumber item _
      · rfl

@[simp] theorem value_setTimeStamps (t : Option Int) (item : Item D) :
    value (setTimeStamps t item) = value item := rfl

@[simp] theorem rid_setTimeStamps (t : Option Int) (item : Item D) :
    (setTimeStamps t item).rid = item.rid := rfl

theorem toString_time {item : Item D} (htype : item.rid.type = .time) (hpos : 0 < item.num) :
    toString clock item = QDateTime.toString (timeFormat item.rid.suffix).1
      (clock.wall (timeFormat item.rid.suffix).2 item.num) := by
  unfold toString
  rw [htype]
  simp only
  rw [if_pos hpos]

theorem reread_toVariant {item : Item D} (hset : item.lastSet ≠ none)
    (hvalid : Valid finite clock item) :
    reread repair qt (toVariant qt clock item) = toVariant qt clock item := by
  unfold Valid at hvalid
  unfold toVariant
  rw [if_neg hset]
  cases htype : item.rid.type with
  | string | timePattern =>
    rw [htype] at hvalid
    rw [reread, hvalid.2.repair_eq]
  | time =>
    rw [htype] at hvalid
    simp only
    rw [reread, toString_time htype hvalid.pos, (QDateTime.wellFormed_toString _ _).repair_eq]
  | bool | real | unknown | uint8 | uint16 | uint32 | uint64 | int8 | int16 | int32 | int64 =>
    rw [reread]

theorem readBack_toVariant (hnumbers : Numbers qt finite) (hvariants : Variants qt toDouble finite)
    {item : Item D} (hset : item.lastSet ≠ none) (hvalid : Valid finite clock item) :
    Every (Parts.doubles (ReadBack qt)) (toVariant qt clock item) := by
  unfold Valid at hvalid
  unfold toVariant
  rw [if_neg hset]
  cases htype : item.rid.type with
  | string | timePattern | time | bool => exact trivial
  | real =>
    rw [htype] at hvalid
    exact hnumbers.number_finite _ hvalid
  | unknown | uint8 | uint16 | uint32 | uint64 | int8 | int16 | int32 | int64 =>
    rw [htype] at hvalid
    exact hnumbers.number_finite _ (hvariants.finite _ hvalid.1.1 hvalid.1.2)

/-- **What is no time comes back** when its variant is set. -/
theorem value_setValue (hvariants : Variants qt toDouble finite) {item : Item D}
    (hset : item.lastSet ≠ none) (hvalid : Valid finite clock item)
    (htime : item.rid.type ≠ .time) :
    value (setValue qt toDouble clock (unset qt item) (.variant (toVariant qt clock item))) =
      writtenValue item := by
  unfold Valid at hvalid
  unfold toVariant
  rw [if_neg hset]
  cases htype : item.rid.type with
  | string | timePattern =>
    rw [htype] at hvalid
    simp only [setValue, unset, htype, value, writtenValue, Entry.toString, QVariant.toString,
      hvalid.1]
  | time => exact absurd htype htime
  | bool =>
    rw [htype] at hvalid
    simp only [setValue, unset, htype, value, writtenValue, Entry.toBool, hvariants.toBool]
    rcases hvalid with hnum | hnum
    · rw [hnum]
      rfl
    · rw [hnum]
      rfl
  | real =>
    simp only [setValue, unset, htype, value, writtenValue, Entry.toReal, hvariants.toDouble]
  | unknown | uint8 | uint16 | uint32 | uint64 | int8 | int16 | int32 | int64 =>
    rw [htype] at hvalid
    have hnumber : setNumber clock (unset qt item) item.num =
        { unset qt item with num := item.num, lastSet := some clock.now } := if_pos hvalid.2
    simp only [setValue, rid_unset, htype, Entry.toInt, hvariants.toInt _ hvalid.1.1 hvalid.1.2,
      hnumber, value, writtenValue]

end values

/-! ## Times -/

section times

variable {qt : Qt D} {toDouble : QVariant D → Option D} {clock : Clock} {item : Item D}
  {suffix : QString} {t : Int}

theorem cut_wall (clock : Clock) (t : Int) :
    cut .seconds (QDateTime.wall clock.zone t) = QDateTime.wall clock.zone (cut .seconds t) := by
  have hsecond : (t - t % 1000) / 1000 = t / 1000 := by omega
  unfold QDateTime.wall Clock.zone
  rw [cut, cut, QDateTime.resolution, hsecond]
  omega

theorem format_of_local (h : (timeFormat suffix).2 = .localTime) :
    (timeFormat suffix).1 = .seconds := by
  unfold timeFormat at h ⊢
  split
  · rename_i hupdated
    rw [if_pos hupdated] at h
    cases h
  · rename_i hupdated
    rw [if_neg hupdated] at h
    split
    · rename_i hset
      rw [if_pos hset] at h
      cases h
    · rename_i hset
      rw [if_neg hset] at h
      split
      · rename_i hseen
        rw [if_pos hseen] at h
        cases h
      · split
        · rfl
        · rfl

theorem instant_cut (hclock : clock.Documented) (h : clock.Writable suffix t) :
    clock.instant (timeFormat suffix).2
      (cut (timeFormat suffix).1 (clock.wall (timeFormat suffix).2 t)) =
    cut (timeFormat suffix).1 t := by
  cases hspec : (timeFormat suffix).2 with
  | utc => rfl
  | localTime =>
    rw [format_of_local hspec]
    show clock.fromLocal (cut .seconds (QDateTime.wall clock.zone t)) = _
    rw [cut_wall]
    exact h.once hspec _ (hclock.wall_fromLocal _)

theorem cut_nonneg (format : Format) (h : 0 < t) : 0 ≤ cut format t := by
  cases format with
  | minutesZ | seconds | secondsZ | milliseconds =>
    rw [cut, QDateTime.resolution]
    omega

theorem fromString_time (htype : item.rid.type = .time)
    (h : clock.Writable item.rid.suffix item.num) :
    fromString (timeFormat item.rid.suffix).1 (toString clock item) =
      some (cut (timeFormat item.rid.suffix).1
        (clock.wall (timeFormat item.rid.suffix).2 item.num)) := by
  rw [toString_time htype h.pos, QDateTime.fromString_toString _ h.inRange]

theorem fromIso8601_isoText (hclock : clock.Documented) (htype : item.rid.type = .time)
    (h : clock.Writable item.rid.suffix item.num) (hread : item.rid.suffix ∉ timesRead)
    (hattr : startsWith item.rid.suffix (ofLatin1 "attr/") = false) :
    clock.fromIso8601 (isoText item.rid.suffix (toString clock item)) =
      cut (timeFormat item.rid.suffix).1 item.num := by
  have hutc : ∀ format, timeFormat item.rid.suffix = (format, .utc) → format = .seconds ∨ format =
      .milliseconds →
      (item.rid.suffix = ofLatin1 "state/lastupdated" ∨ item.rid.suffix =
        ofLatin1 "state/lastcheckin" ∨
        item.rid.suffix = ofLatin1 "state/sunrise" ∨
        item.rid.suffix = ofLatin1 "state/sunset") →
      clock.fromIso8601 (isoText item.rid.suffix (toString clock item)) =
        cut (timeFormat item.rid.suffix).1 item.num := by
    intro format hformat hzone hname
    have hrange := h.inRange
    rw [hformat] at hrange
    rw [isoText, toString_time htype h.pos, hformat,
      if_pos ⟨QDateTime.endsWith_toString hzone _, hname⟩]
    exact hclock.iso_utc format _ hzone hrange
  by_cases hcheckin : item.rid.suffix = ofLatin1 "state/lastcheckin"
  · exact hutc .milliseconds (by rw [hcheckin]; rfl) (.inr rfl) (.inr (.inl hcheckin))
  · by_cases hsun : item.rid.suffix = ofLatin1 "state/sunrise" ∨ item.rid.suffix =
        ofLatin1 "state/sunset"
    · have hformat : timeFormat item.rid.suffix = (.seconds, .utc) := by
        rcases hsun with hsun | hsun
        · rw [hsun]
          rfl
        · rw [hsun]
          rfl
      exact hutc .seconds hformat (.inl rfl) (.inr (.inr hsun))
    · -- the other ones have no zone, and are local times
      have hnot : ∀ s ∈ timesRead, item.rid.suffix ≠ s := by
        rintro s hs rfl
        exact hread hs
      simp only [timesRead, map_cons, map_nil, forall_mem_cons] at hnot
      obtain ⟨hset, hupdated, -, hutc', hchange, -⟩ := hnot
      have hfront : ∀ s, startsWith s (ofLatin1 "attr/") = true → item.rid.suffix ≠ s := by
        rintro s hs rfl
        rw [hattr] at hs
        cases hs
      have hannounced := hfront (ofLatin1 "attr/lastannounced") (by decide)
      have hseen := hfront (ofLatin1 "attr/lastseen") (by decide)
      have hmsecs : ¬ (item.rid.suffix = ofLatin1 "state/lastupdated" ∨ item.rid.suffix =
          ofLatin1 "state/lastcheckin") := not_or.mpr ⟨hupdated, hcheckin⟩
      have hformat : timeFormat item.rid.suffix = (.seconds, .localTime) := by
        unfold timeFormat
        rw [if_neg hmsecs, if_neg, if_neg hseen, if_neg hsun]
        rintro (heq | heq | heq | heq)
        · exact hannounced heq
        · exact hset heq
        · exact hutc' heq
        · exact hchange heq
      have hrange := h.inRange
      have hback := instant_cut hclock h
      rw [hformat] at hrange hback
      rw [isoText, if_neg, toString_time htype h.pos, hformat]
      · exact (hclock.iso_local _ hrange).trans hback
      · rintro ⟨-, heq | heq | heq⟩
        · exact hupdated heq
        · exact hcheckin heq
        · exact hsun heq

theorem setValue_time (htype : item.rid.type = .time) {val : Entry D}
    (hval : val ≠ .variant .invalid) :
    setValue qt toDouble clock (unset qt item) val = setTime clock (unset qt item) val := by
  unfold setValue
  split
  · exact absurd rfl hval
  · rw [rid_unset, htype]

theorem value_setText (hclock : clock.Documented) (htype : item.rid.type = .time)
    (h : clock.Writable item.rid.suffix item.num) (hread : item.rid.suffix ∉ timesRead)
    (hattr : startsWith item.rid.suffix (ofLatin1 "attr/") = false) :
    value (setValue qt toDouble clock (unset qt item) (.variant (.string (toString clock item)))) =
      writtenValue item := by
  have hnil : toString clock item ≠ [] := by
    rw [toString_time htype h.pos]
    exact QDateTime.toString_ne_nil _ _
  have hnonneg := cut_nonneg (timeFormat item.rid.suffix).1 h.pos
  rw [setValue_time htype (by simp), setTime, if_neg hnil, rid_unset,
    fromIso8601_isoText hclock htype h hread hattr]
  simp only
  split
  · simp only [value, writtenValue, htype]
  · rename_i hpos
    -- nothing is left of the time, and the item stays at the epoch
    have hzero : cut (timeFormat item.rid.suffix).1 item.num = 0 := by omega
    simp only [value, writtenValue, rid_unset, htype, hzero]
    rfl

theorem value_setDateTime (htype : item.rid.type = .time) (t : Int) :
    value (setValue qt toDouble clock (unset qt item) (.dateTime (some t))) = .number t := by
  rw [setValue_time htype (by simp), setTime]
  simp only [value, rid_unset, htype, Option.getD_some]

end times

/-! ## What is read -/

section read

variable {qt : Qt D} {toDouble : QVariant D → Option D} {clock : Clock} {finite : D → Prop}
  {item : Item D} {map : List (QString × QVariant D)}

theorem fromString_utc (htype : item.rid.type = .time)
    (h : clock.Writable item.rid.suffix item.num) {format : Format}
    (hformat : timeFormat item.rid.suffix = (format, .utc)) :
    fromString format (toString clock item) = some (cut (timeFormat item.rid.suffix).1 item.num) := by
  have hread := fromString_time htype h
  rw [hformat] at hread ⊢
  exact hread

theorem stateEntry_time (hclock : clock.Documented) (htype : item.rid.type = .time)
    (h : clock.Writable item.rid.suffix item.num)
    (hfront : startsWith item.rid.suffix stateFront = true)
    (hread : item.rid.suffix ∈ timesRead) :
    stateEntry qt clock (item.rid.suffix.drop stateFront.length)
        (.string (toString clock item)) =
      .dateTime (some (cut (timeFormat item.rid.suffix).1 item.num)) := by
  have hkey : ∀ name : String, item.rid.suffix = stateFront ++ ofLatin1 name →
      item.rid.suffix.drop stateFront.length = ofLatin1 name := by
    intro name hname
    rw [hname, drop_left]
  simp only [timesRead, map_cons, map_nil, mem_cons, not_mem_nil, or_false] at hread
  unfold stateEntry
  simp only [QVariant.toString]
  rcases hread with hname | hname | hname | hname | hname
  · rw [hkey "lastset" hname, if_pos rfl, fromString_utc htype h (by rw [hname]; rfl)]
  · have hformat : timeFormat item.rid.suffix = (.milliseconds, .utc) := by
      rw [hname]
      rfl
    have hlength : updatedFormat (toString clock item) = .milliseconds := by
      rw [updatedFormat, toString_time htype h.pos, hformat, QDateTime.length_milliseconds]
      rfl
    rw [hkey "lastupdated" hname, if_neg (by decide), if_pos rfl, hlength,
      fromString_utc htype h hformat]
  · have hformat : timeFormat item.rid.suffix = (.seconds, .localTime) := by
      rw [hname]
      rfl
    have hlocal := fromString_time htype h
    have hback := instant_cut hclock h
    rw [hformat] at hlocal hback
    rw [hkey "localtime" hname, if_neg (by decide), if_neg (by decide), if_pos rfl, hlocal, hformat,
      map_some, hback]
  · rw [hkey "utc" hname, if_neg (by decide), if_neg (by decide), if_neg (by decide), if_pos rfl,
      fromString_utc htype h (by rw [hname]; rfl)]
  · rw [hname] at hfront
    exact absurd hfront (by decide)

theorem stateEntry_of_not_mem (hfront : startsWith item.rid.suffix stateFront = true)
    (hread : item.rid.suffix ∉ timesRead) (v : QVariant D) :
    stateEntry qt clock (item.rid.suffix.drop stateFront.length) v = .variant v := by
  have hname : ∀ name : String, stateFront ++ ofLatin1 name ∈ timesRead →
      item.rid.suffix.drop stateFront.length ≠ ofLatin1 name := by
    intro name hmem hkey
    rw [← hkey, eq_of_startsWith hfront] at hmem
    exact hread hmem
  unfold stateEntry
  simp only
  rw [if_neg (hname "lastset" (by decide)), if_neg (hname "lastupdated" (by decide)),
    if_neg (hname "localtime" (by decide)), if_neg (hname "utc" (by decide))]

theorem configEntry_time (htype : item.rid.type = .time)
    (h : clock.Writable item.rid.suffix item.num)
    (hfront : startsWith item.rid.suffix configFront = true)
    (hread : item.rid.suffix ∈ timesRead) :
    configEntry qt (item.rid.suffix.drop configFront.length) (.string (toString clock item)) =
      .dateTime (some (cut (timeFormat item.rid.suffix).1 item.num)) := by
  simp only [timesRead, map_cons, map_nil, mem_cons, not_mem_nil, or_false] at hread
  rcases hread with hname | hname | hname | hname | hname
  · rw [hname] at hfront
    exact absurd hfront (by decide)
  · rw [hname] at hfront
    exact absurd hfront (by decide)
  · rw [hname] at hfront
    exact absurd hfront (by decide)
  · rw [hname] at hfront
    exact absurd hfront (by decide)
  · have hkey : item.rid.suffix.drop configFront.length = ofLatin1 "lastchange_time" := by
      rw [hname]
      rfl
    rw [configEntry, hkey, if_pos rfl, QVariant.toString,
      fromString_utc htype h (by rw [hname]; rfl)]

theorem configEntry_of_not_mem (hfront : startsWith item.rid.suffix configFront = true)
    (hread : item.rid.suffix ∉ timesRead) (v : QVariant D) :
    configEntry qt (item.rid.suffix.drop configFront.length) v = .variant v := by
  have hname : item.rid.suffix.drop configFront.length ≠ ofLatin1 "lastchange_time" := by
    intro hkey
    apply hread
    rw [← eq_of_startsWith hfront, hkey]
    decide
  rw [configEntry, if_neg hname]

theorem front_unique {s front front' : QString} (hne : front.head? ≠ front'.head?)
    (hfront : front ≠ []) (hfront' : front' ≠ []) (h : startsWith s front = true) :
    startsWith s front' = false := by
  rw [Bool.eq_false_iff]
  intro h'
  rw [← eq_of_startsWith h] at h'
  obtain ⟨rest, hrest⟩ := isPrefixOf_iff_prefix.mp h'
  cases front with
  | nil => exact hfront rfl
  | cons c front =>
    cases front' with
    | nil => exact hfront' rfl
    | cons c' front' =>
      rw [cons_append, cons_append, List.cons.injEq] at hrest
      rw [List.head?_cons, List.head?_cons, hrest.1] at hne
      exact hne rfl

theorem toVariant_time (htype : item.rid.type = .time) (hset : item.lastSet ≠ none) :
    toVariant qt clock item = .string (toString clock item) := by
  rw [toVariant, if_neg hset, htype]

/-- **An item of the state comes back**, as far as it is written. -/
theorem value_readState (hvariants : Variants qt toDouble finite) (hclock : clock.Documented)
    (hset : item.lastSet ≠ none) (hvalid : Valid finite clock item)
    (hfront : startsWith item.rid.suffix stateFront = true)
    (hlookup : map.lookup (item.rid.suffix.drop stateFront.length) =
      some (toVariant qt clock item)) :
    value (readState qt toDouble clock map (unset qt item)) = writtenValue item := by
  rw [readState, rid_unset, if_pos hfront]
  simp only
  rw [hlookup]
  simp only
  rw [value_setTimeStamps]
  by_cases htype : item.rid.type = .time
  · have hwritable : clock.Writable item.rid.suffix item.num := by
      rw [Valid, htype] at hvalid
      exact hvalid
    rw [toVariant_time htype hset]
    by_cases hread : item.rid.suffix ∈ timesRead
    · rw [stateEntry_time hclock htype hwritable hfront hread, value_setDateTime htype,
        writtenValue, htype]
    · rw [stateEntry_of_not_mem hfront hread]
      exact value_setText hclock htype hwritable hread
        (front_unique (by decide) (by decide) (by decide) hfront)
  · rw [stateEntry_of_not_mem hfront fun hread => htype (item.rid.times hread)]
    exact value_setValue hvariants hset hvalid htype

theorem value_of_null {v : QVariant D} (hv : v = toVariant qt clock item)
    (hset : item.lastSet ≠ none) (htype : item.rid.type ≠ .time)
    (hnull : (Entry.variant v).isNull = true) :
    item.rid.suffix ≠ ofLatin1 "config/on" ∧ value (unset qt item) = writtenValue item := by
  rw [hv, toVariant, if_neg hset] at hnull
  cases hkind : item.rid.type with
  | time => exact absurd hkind htype
  | string | timePattern =>
    rw [hkind] at hnull
    have hempty : item.str = [] := of_decide_eq_true hnull
    refine ⟨fun hon => ?_, ?_⟩
    · rw [item.rid.on hon] at hkind
      cases hkind
    · simp only [value, writtenValue, hkind, unset, hempty]
  | bool | real | unknown | uint8 | uint16 | uint32 | uint64 | int8 | int16 | int32 | int64 =>
    rw [hkind] at hnull
    cases hnull

/-- **An item of the config comes back**, as far as it is written, unless it is left out. -/
theorem value_readConfig (hvariants : Variants qt toDouble finite) (hclock : clock.Documented)
    (hset : item.lastSet ≠ none) (hvalid : Valid finite clock item)
    (hfront : startsWith item.rid.suffix configFront = true)
    (hreachable : item.rid.suffix ≠ ofLatin1 "config/reachable")
    (hpending : item.rid.suffix ≠ ofLatin1 "config/pending")
    (hlookup : map.lookup (item.rid.suffix.drop configFront.length) =
      some (toVariant qt clock item)) :
    value (readConfig qt toDouble clock false map (unset qt item)) = writtenValue item := by
  rw [readConfig, rid_unset, if_neg fun h => hreachable h.2, if_pos ⟨hfront, hpending⟩]
  simp only
  rw [hlookup]
  simp only
  by_cases htype : item.rid.type = .time
  · have hwritable : clock.Writable item.rid.suffix item.num := by
      rw [Valid, htype] at hvalid
      exact hvalid
    rw [toVariant_time htype hset]
    by_cases hread : item.rid.suffix ∈ timesRead
    · have hnull : ∀ t, (Entry.dateTime (some t) : Entry D).isNull = false := fun _ => rfl
      rw [configEntry_time htype hwritable hfront hread, hnull, if_neg Bool.false_ne_true,
        value_setTimeStamps, value_setDateTime htype, writtenValue, htype]
    · have htext : toString clock item ≠ [] := by
        rw [toString_time htype hwritable.pos]
        exact QDateTime.toString_ne_nil _ _
      rw [configEntry_of_not_mem hfront hread, if_neg (by simpa [Entry.isNull] using htext),
        value_setTimeStamps]
      exact value_setText hclock htype hwritable hread
        (front_unique (by decide) (by decide) (by decide) hfront)
  · rw [configEntry_of_not_mem hfront fun hread => htype (item.rid.times hread)]
    split
    · rename_i hnull
      obtain ⟨hon, hvalue⟩ := value_of_null rfl hset htype hnull
      rw [if_neg hon, hvalue]
    · rw [value_setTimeStamps]
      exact value_setValue hvariants hset hvalid htype

end read

/-! ## Round trip -/

def isStored (rid : Descriptor) : Prop :=
  (startsWith rid.suffix stateFront = true ∨ startsWith rid.suffix configFront = true) ∧
  rid.suffix ≠ ofLatin1 "config/reachable" ∧ rid.suffix ≠ ofLatin1 "config/pending"

def unsetSensor (qt : Qt D) (sensor : Sensor D) : Sensor D :=
  { sensor with items := sensor.items.map (unset qt) }

/-- What is loaded into the unset sensor: the state, then the config -/
def restored (qt : Qt D) (toDouble : QVariant D → Option D) (clock : Clock) (sensor : Sensor D) :
    Sensor D :=
  jsonToConfig qt toDouble clock (configToString qt clock sensor)
    (jsonToState qt toDouble clock (stateToString qt clock sensor) (unsetSensor qt sensor))

/-- The item is the same one, and has the value that is written of the other. -/
structure ComesBack (item item' : Item D) : Prop where
  rid : item'.rid = item.rid
  value : isStored item.rid → value item' = writtenValue item

/-- Every item of the sensor was set, and no two have one name. -/
structure Sensor.WellSet (finite : D → Prop) (clock : Clock) (sensor : Sensor D) : Prop where
  distinct : (sensor.items.map fun item => item.rid.suffix).Nodup
  isSet : ∀ item ∈ sensor.items, item.lastSet ≠ none
  valid : ∀ item ∈ sensor.items, Valid finite clock item

section roundTrip

variable {qt : Qt D} {toDouble : QVariant D → Option D} {clock : Clock} {finite : D → Prop}
  {sensor : Sensor D} {front : QString}

@[simp] theorem rid_readState (map : List (QString × QVariant D)) (item : Item D) :
    (readState qt toDouble clock map item).rid = item.rid := by
  unfold readState
  split
  · simp only
    split
    · rw [rid_setTimeStamps, rid_setValue]
    · rfl
  · rfl

@[simp] theorem rid_readConfig (clip : Bool) (map : List (QString × QVariant D)) (item : Item D) :
    (readConfig qt toDouble clock clip map item).rid = item.rid := by
  unfold readConfig
  split
  · exact rid_setNumber item 0
  · split
    · simp only
      split
      · split
        · split
          · rw [rid_setTimeStamps, rid_setValue]
          · rfl
        · rw [rid_setTimeStamps, rid_setValue]
      · rfl
    · rfl

variable {item : Item D}

theorem readState_other (h : startsWith item.rid.suffix stateFront = false)
    (map : List (QString × QVariant D)) : readState qt toDouble clock map item = item := by
  rw [readState, h, if_neg Bool.false_ne_true]

theorem readConfig_other (h : startsWith item.rid.suffix configFront = false) (clip : Bool)
    (map : List (QString × QVariant D)) : readConfig qt toDouble clock clip map item = item := by
  have hreachable : ¬ (clip = false ∧ item.rid.suffix = ofLatin1 "config/reachable") := by
    rintro ⟨-, hname⟩
    rw [hname] at h
    exact absurd h (by decide)
  rw [readConfig, if_neg hreachable, h, if_neg fun hconfig => Bool.false_ne_true hconfig.1]

theorem lookup_read (hset : sensor.WellSet finite clock) (hmem : item ∈ sensor.items)
    (hfront : startsWith item.rid.suffix front = true) :
    ((writtenMap qt clock front sensor.items).map fun e =>
      (e.1, reread repair qt e.2)).lookup (item.rid.suffix.drop front.length) =
    some (toVariant qt clock item) := by
  rw [Json.lookup_map_snd, lookup_writtenMap hset.distinct hmem hfront, map_some,
    reread_toVariant (hset.isSet item hmem) (hset.valid item hmem)]

end roundTrip

/-! ## A thermostat -/

/-- `QVariant::toDouble` where every number is a whole one -/
def wholeDouble : QVariant Int → Option Int := Qt.numeric?

def hourEast : Clock where
  offset := fun _ => 3600
  fromLocal := fun wall => wall - 3600000
  fromIso8601 := fun s =>
    if endsWith s [unit 'Z'] then
      (fromString (updatedFormat s.dropLast) s.dropLast).getD 0
    else
      (fromString (updatedFormat s) s).getD 0 - 3600000
  text := fun _ => []
  ofInvalid := 0
  now := 1800000000000

theorem documented_hourEast : hourEast.Documented where
  wall_fromLocal := by
    intro t
    show t + 1000 * 3600 - 3600000 + 1000 * 3600 = t + 1000 * 3600
    omega
  iso_utc := by
    intro format wall hformat hrange
    have hz : endsWith (QDateTime.toString format wall ++ [unit 'Z'])
        [unit 'Z'] = true := endsWith_iff.mpr ⟨_, rfl⟩
    have hlength : updatedFormat (QDateTime.toString format wall) = format := by
      rcases hformat with rfl | rfl
      · rw [updatedFormat, QDateTime.length_seconds, if_pos rfl]
      · rw [updatedFormat, QDateTime.length_milliseconds, if_neg (by decide)]
    show (if _ then _ else _) = _
    rw [if_pos hz, dropLast_concat, hlength, QDateTime.fromString_toString format hrange]
    rfl
  iso_local := by
    intro wall hrange
    show (if _ then _ else _) = _
    rw [QDateTime.endsWith_toString (.inl rfl), if_neg Bool.false_ne_true, updatedFormat,
      QDateTime.length_seconds, if_pos rfl, QDateTime.fromString_toString .seconds hrange]
    rfl

theorem variants_wholeDouble : Variants Json.wholeQt wholeDouble fun _ => True where
  finite := fun _ _ _ => trivial
  toInt := fun _ _ _ => rfl
  toDouble := fun _ => rfl
  toBool := by
    intro b
    cases b with
    | false => rfl
    | true => rfl

def setItem (rid : Descriptor) (num : Int) (str : String) : Item Int :=
  { rid := rid, num := num, real := num, str := ofLatin1 str, lastSet := some 1700000001000 }

def lastsetDescriptor : Descriptor where
  type := .time
  suffix := ofLatin1 "state/lastset"
  ascii := by decide
  times := by decide
  on := by decide

def halfSecond : Sensor Int where
  type := ofLatin1 "ZHAThermostat"
  items := [setItem lastsetDescriptor 1700000000500 ""]

theorem writable_lastset : hourEast.Writable lastsetDescriptor.suffix 1700000000500 where
  pos := by decide
  inRange := by
    show -719162 ≤ (1700000000500 : Int) / 86400000 ∧ (1700000000500 : Int) / 86400000 < 2932897
    decide
  once := fun hlocal => absurd hlocal (by decide)

theorem wellSet_halfSecond : halfSecond.WellSet (fun _ => True) hourEast where
  distinct := by decide
  isSet := by
    intro item hmem
    rw [mem_singleton.mp hmem]
    exact some_ne_none _
  valid := by
    intro item hmem
    rw [mem_singleton.mp hmem]
    exact writable_lastset

def temperatureDescriptor : Descriptor where
  type := .int16
  suffix := ofLatin1 "state/temperature"
  validMin := -27315
  validMax := 32767
  ascii := by decide
  times := by decide
  on := by decide

def localtimeDescriptor : Descriptor where
  type := .time
  suffix := ofLatin1 "config/localtime"
  ascii := by decide
  times := by decide
  on := by decide

def modeDescriptor : Descriptor where
  type := .string
  suffix := ofLatin1 "config/mode"
  ascii := by decide
  times := by decide
  on := by decide

def onDescriptor : Descriptor where
  type := .bool
  suffix := ofLatin1 "config/on"
  ascii := by decide
  times := by decide
  on := by decide

def thermostat : Sensor Int where
  type := ofLatin1 "ZHAThermostat"
  items := [setItem lastsetDescriptor 1700000000500 "", setItem temperatureDescriptor (-150) "",
    setItem localtimeDescriptor 1700000000500 "", setItem modeDescriptor 0 "\"21\"",
    setItem onDescriptor 1 ""]

theorem wellSet_thermostat : thermostat.WellSet (fun _ => True) hourEast where
  distinct := by decide
  isSet := by
    simp only [thermostat, forall_mem_cons]
    refine ⟨some_ne_none _, some_ne_none _, some_ne_none _,
      some_ne_none _, some_ne_none _, ?_⟩
    exact fun item hmem => absurd hmem not_mem_nil
  valid := by
    simp only [thermostat, forall_mem_cons]
    refine ⟨writable_lastset, ?_, ?_, ?_, .inr rfl, fun item hmem => absurd hmem not_mem_nil⟩
    · exact ⟨⟨by decide, by decide⟩, .inr ⟨by decide, by decide⟩⟩
    · refine ⟨by decide, ?_, fun _ t' hwall => ?_⟩
      · show -719162 ≤ (1700000000500 + 1000 * 3600 : Int) / 86400000 ∧
          (1700000000500 + 1000 * 3600 : Int) / 86400000 < 2932897
        decide
      · have hshift : t' + 1000 * 3600 = cut .seconds 1700000000500 + 1000 * 3600 := hwall
        show t' = cut .seconds 1700000000500
        omega
    · exact ⟨by decide, wellFormed_ofLatin1 (by decide)⟩

end SensorStorage
end DeconzRest
