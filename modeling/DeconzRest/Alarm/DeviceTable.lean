import DeconzRest.Alarm.Keypad
import DeconzRest.Resource.StringItem
import DeconzRest.Lib.KeyedList

/-!
# The alarm device table and its database rows

`AS_DeviceTable` finds an entry by the MAC address in its unique id, the database finds a row by
the text of the unique id.  The text in the database ends at the first NUL, and a row without an
alarm system is not loaded.
-/

namespace DeconzRest

open List

namespace QString

def ofLatin1Octets (octets : List UInt8) : QString := octets.map UInt8.toUInt16

/-- `QChar::toLatin1` -/
def toLatin1 (ch : QChar) : UInt8 := if ch.toNat < 256 then ch.toUInt8 else 0

end QString

/-- `isHexChar` -/
def isHexChar (ch : UInt8) : Bool :=
  (0x30 ≤ ch && ch ≤ 0x39) || (0x61 ≤ ch && ch ≤ 0x66) || (0x41 ≤ ch && ch ≤ 0x46)

/-- The loop of `extAddressFromUniqueId`: the first sixteen hex digits, colons skipped. -/
def collectHex : QString → List UInt8 → Option (List UInt8)
  | [], _ => none
  | ch :: rest, buf =>
    if ch = 0x3A then collectHex rest buf
    else if ¬ isHexChar (QString.toLatin1 ch) then none
    else if buf.length + 1 = 16 then some (buf ++ [QString.toLatin1 ch])
    else collectHex rest (buf ++ [QString.toLatin1 ch])

/-- `strtoull(buf, nullptr, 16)` of hex digits -/
def hexValue (buf : List UInt8) : Nat :=
  buf.foldl (fun n c => 16 * n + Qt.hexDigit c.toUInt16) 0

/-- `extAddressFromUniqueId` -/
def extAddressFromUniqueId (uniqueId : QString) : Nat :=
  if uniqueId.length < 23 then 0
  else (collectHex uniqueId []).elim 0 hexValue

/-- `AS_DeviceEntry` with its arm mask -/
structure TableEntry extends DeviceEntry where
  armMask : List UInt8
deriving DecidableEq, Repr

/-- A row of `alarm_systems_devices`; `flags` is written as a signed number. -/
structure DeviceRow where
  uniqueid : List UInt8
  alarmSystemId : Nat
  flags : Int
deriving DecidableEq, Repr

structure DeviceTable where
  table : List TableEntry := []
  db : List DeviceRow := []
deriving DecidableEq, Repr

namespace DeviceTable

/-- `AS_MAX_UNIQUEID_LENGTH` -/
def maxUniqueIdLength : Nat := 31

/-- `entryInitArmMask` -/
def armMaskOf (flags : Nat) : List UInt8 :=
  (if flags &&& 0x100 ≠ 0 then [0x41] else []) ++ (if flags &&& 0x200 ≠ 0 then [0x53] else []) ++
    if flags &&& 0x400 ≠ 0 then [0x4E] else []

/-- `DB_StoreAlarmSystemDevice`: `REPLACE INTO`, with `'%d'` for the flags -/
def dbStore (db : List DeviceRow) (uniqueid : List UInt8) (alarmSystemId flags : Nat) :
    List DeviceRow :=
  KeyedList.replace DeviceRow.uniqueid db
    ⟨uniqueid, alarmSystemId, if flags < 2147483648 then flags else (flags : Int) - 4294967296⟩

/-- `DB_DeleteAlarmSystemDevice` -/
def dbDelete (db : List DeviceRow) (uniqueid : List UInt8) : List DeviceRow :=
  KeyedList.remove DeviceRow.uniqueid db uniqueid

/-- `storeDeviceEntry` -/
def storeDeviceEntry (db : List DeviceRow) (entry : TableEntry) : List DeviceRow :=
  if cString entry.uniqueId = [] then db
  else dbStore db (cString entry.uniqueId) entry.alarmSystemId entry.flags

/-- `getIterator` -/
def getIterator (table : List TableEntry) (extAddress : Nat) : Option Nat :=
  table.findIdx? fun entry => entry.extAddress == extAddress

/-- `AS_DeviceTable::put` -/
def put (t : DeviceTable) (uniqueId : QString) (flags : UInt32) (alarmSystemId : UInt8) :
    DeviceTable × Bool :=
  let extAddress := extAddressFromUniqueId uniqueId
  if extAddress = 0 then (t, false)
  else
    match getIterator t.table extAddress with
    | some i => -- existing
        match t.table[i]? with
        | none => (t, true)
        | some entry =>
          if entry.flags ≠ flags.toNat ∨ entry.alarmSystemId ≠ alarmSystemId.toNat then
            let entry := { entry with flags := flags.toNat, alarmSystemId := alarmSystemId.toNat,
                                      armMask := armMaskOf flags.toNat }
            (⟨t.table.set i entry, storeDeviceEntry t.db entry⟩, true)
          else (t, true)
    | none => -- not existing, create new
        if maxUniqueIdLength + 1 ≤ uniqueId.length then (t, false)
        else
          let entry : TableEntry :=
            { uniqueId := (QString.toUtf8 uniqueId).take uniqueId.length
              extAddress, alarmSystemId := alarmSystemId.toNat, flags := flags.toNat
              armMask := armMaskOf flags.toNat }
          (⟨t.table ++ [entry], storeDeviceEntry t.db entry⟩, true)

/-- `AS_DeviceTable::erase` -/
def erase (t : DeviceTable) (uniqueId : List UInt8) : DeviceTable × Bool :=
  match getIterator t.table (extAddressFromUniqueId (QString.ofLatin1Octets uniqueId)) with
  | none => (t, false)
  | some i =>
    match t.table[i]? with
    | none => (t, false)
    | some entry =>
      (⟨KeyedList.swapErase t.table i, dbDelete t.db (cString entry.uniqueId)⟩, true)

/-- `DB_LoadAlarmSystemDevices()`: the rows that the callback accepts -/
def dbLoad (db : List DeviceRow) : List DeviceRow :=
  db.filter fun row => decide (row.uniqueid ≠ [] ∧ row.alarmSystemId ≠ 0)

def loadEntry (row : DeviceRow) : TableEntry where
  uniqueId := row.uniqueid
  extAddress := extAddressFromUniqueId (QString.ofLatin1Octets row.uniqueid)
  flags := (row.flags % 4294967296).toNat
  alarmSystemId := row.alarmSystemId % 256
  armMask := armMaskOf (row.flags % 4294967296).toNat

/-- `DB_LoadAlarmSystemDevices(devTable)` -/
def load (table : List TableEntry) (db : List DeviceRow) : List TableEntry :=
  if dbLoad db = [] then table
  else ((dbLoad db).filter fun row => decide (row.uniqueid.length ≤ maxUniqueIdLength)).map loadEntry

inductive Action where
  | put (uniqueId : QString) (flags : UInt32) (alarmSystemId : UInt8)
  | erase (uniqueId : List UInt8)

def step (t : DeviceTable) : Action → DeviceTable
  | .put uniqueId flags alarmSystemId => (t.put uniqueId flags alarmSystemId).1
  | .erase uniqueId => (t.erase uniqueId).1

theorem isHexChar_iff {b : UInt8} : isHexChar b = true ↔ (0x30 ≤ b.toNat ∧ b.toNat ≤ 0x39) ∨
    (0x61 ≤ b.toNat ∧ b.toNat ≤ 0x66) ∨ (0x41 ≤ b.toNat ∧ b.toNat ≤ 0x46) := by
  simp only [isHexChar, Bool.or_eq_true, Bool.and_eq_true, decide_eq_true_eq, UInt8.le_iff_toNat_le,
    UInt8.reduceToNat, or_assoc]

theorem ascii_of_hex {ch : QChar} (h : ch = 0x3A ∨ isHexChar (QString.toLatin1 ch) = true) :
    ch.toNat < 0x80 ∧ ch.toUInt8 ≠ 0 := by
  have hrange : 0x30 ≤ ch.toNat ∧ ch.toNat < 0x80 := by
    rcases h with rfl | h
    · decide
    · unfold QString.toLatin1 at h
      split at h
      · rename_i hsmall
        have hnat : ch.toUInt8.toNat = ch.toNat := by
          rw [UInt16.toNat_toUInt8]
          exact Nat.mod_eq_of_lt hsmall
        have hhex := isHexChar_iff.mp h
        omega
      · exact absurd h (by decide)
  refine ⟨hrange.2, ?_⟩
  intro hzero
  have hnat := congrArg UInt8.toNat hzero
  rw [UInt16.toNat_toUInt8] at hnat
  have hnone : (0 : UInt8).toNat = 0 := rfl
  omega

/-- The text that `put` writes: the octets of the UTF-8 form, up to the first NUL. -/
def storedText (uniqueId : QString) (n : Nat) : List UInt8 :=
  cString ((QString.toUtf8 uniqueId).take n)

theorem storedText_cons {ch : QChar} (h : ch = 0x3A ∨ isHexChar (QString.toLatin1 ch) = true)
    (rest : QString) (n : Nat) :
    QString.ofLatin1Octets (storedText (ch :: rest) (n + 1)) = ch ::
      QString.ofLatin1Octets (storedText rest n) := by
  obtain ⟨hascii, hnul⟩ := ascii_of_hex h
  unfold storedText cString
  rw [QString.toUtf8_cons_ascii hascii, take_succ_cons, takeWhile_cons_of_pos (by simpa using hnul)]
  refine congrArg (· :: _) (UInt16.toNat_inj.mp ?_)
  rw [UInt8.toNat_toUInt16, UInt16.toNat_toUInt8]
  exact Nat.mod_eq_of_lt (by omega)

theorem collectHex_storedText {s : QString} {buf digits : List UInt8}
    (h : collectHex s buf = some digits) {n : Nat} (hn : s.length ≤ n) :
    collectHex (QString.ofLatin1Octets (storedText s n)) buf = some digits := by
  induction s generalizing buf n with
  | nil => exact absurd h (by simp [collectHex])
  | cons ch rest ih =>
    obtain ⟨n, rfl⟩ : ∃ m, n = m + 1 := ⟨n - 1, by rw [length_cons] at hn; omega⟩
    have hrest : rest.length ≤ n := Nat.le_of_succ_le_succ hn
    unfold collectHex at h
    split at h
    · rename_i hcolon
      rw [storedText_cons (.inl hcolon)]
      unfold collectHex
      rw [if_pos hcolon]
      exact ih h hrest
    · rename_i hcolon
      split at h
      · exact absurd h (by simp)
      · rename_i hhex
        rw [storedText_cons (.inr (not_not.mp hhex))]
        unfold collectHex
        rw [if_neg hcolon, if_neg hhex]
        split at h
        · rename_i hfull
          rw [if_pos hfull]
          exact h
        · rename_i hmore
          rw [if_neg hmore]
          exact ih h hrest

/-- What `put` makes sure of. -/
structure WellMade (e : TableEntry) : Prop where
  address : (collectHex (QString.ofLatin1Octets (cString e.uniqueId)) []).elim 0 hexValue =
    e.extAddress
  extAddress : e.extAddress ≠ 0
  long : 23 ≤ e.uniqueId.length
  short : e.uniqueId.length ≤ maxUniqueIdLength
  flags : e.flags < 4294967296
  alarmSystemId : e.alarmSystemId < 256
  armMask : e.armMask = armMaskOf e.flags

def rowOf (e : TableEntry) : DeviceRow where
  uniqueid := cString e.uniqueId
  alarmSystemId := e.alarmSystemId
  flags := if e.flags < 2147483648 then e.flags else (e.flags : Int) - 4294967296

variable {e : TableEntry}

theorem storeDeviceEntry_eq (h : WellMade e) (db : List DeviceRow) :
    storeDeviceEntry db e = KeyedList.replace DeviceRow.uniqueid db (rowOf e) := by
  unfold storeDeviceEntry
  rw [if_neg]
  · rfl
  · intro hempty
    have haddress := h.address
    rw [hempty] at haddress
    exact h.extAddress haddress.symm

theorem rowOf_flags (h : e.flags < 4294967296) :
    ((rowOf e).flags % 4294967296).toNat = e.flags := by
  unfold rowOf
  simp only
  split <;> omega

theorem loadEntry_rowOf (h : WellMade e) (hnul : 0 ∉ e.uniqueId) : loadEntry (rowOf e) = e := by
  have htext : cString e.uniqueId = e.uniqueId := cString_eq_self_iff.mpr hnul
  have haddress := h.address
  rw [htext] at haddress
  have hlong : ¬ (QString.ofLatin1Octets e.uniqueId).length < 23 := by
    unfold QString.ofLatin1Octets
    rw [length_map]
    exact Nat.not_lt.mpr h.long
  have hext : extAddressFromUniqueId (QString.ofLatin1Octets e.uniqueId) = e.extAddress := by
    unfold extAddressFromUniqueId
    rw [if_neg hlong, haddress]
  unfold loadEntry
  rw [rowOf_flags h.flags, ← h.armMask]
  unfold rowOf
  simp only [htext, hext, Nat.mod_eq_of_lt h.alarmSystemId]

/-- The table and the database belong together. -/
structure Agrees (t : DeviceTable) : Prop where
  nodup : (t.table.map fun e => e.extAddress).Nodup
  wellMade : ∀ e ∈ t.table, WellMade e
  rows : t.db.Perm (t.table.map rowOf)

variable {table : List TableEntry}

theorem nodup_rows (hnodup : (table.map fun e => e.extAddress).Nodup)
    (hmade : ∀ e ∈ table, WellMade e) : ((table.map rowOf).map DeviceRow.uniqueid).Nodup := by
  have haddress : table.map (fun e => e.extAddress) =
      ((table.map rowOf).map DeviceRow.uniqueid).map fun text =>
        (collectHex (QString.ofLatin1Octets text) []).elim 0 hexValue := by
    rw [map_map, map_map]
    exact map_congr_left fun e he => (hmade e he).address.symm
  rw [haddress] at hnodup
  exact hnodup.of_map _

theorem getIterator_some {x i : Nat} (h : getIterator table x = some i) :
    ∃ e, table[i]? = some e ∧ e.extAddress = x := by
  unfold getIterator at h
  obtain ⟨hi, hfound, -⟩ := List.findIdx?_eq_some_iff_getElem.mp h
  exact ⟨table[i], List.getElem?_eq_getElem hi, beq_iff_eq.mp hfound⟩

theorem getIterator_none {x : Nat} (h : getIterator table x = none) :
    ∀ e ∈ table, e.extAddress ≠ x := by
  unfold getIterator at h
  intro e he hsame
  have hnot := List.findIdx?_eq_none_iff.mp h e he
  rw [hsame, beq_self_eq_true] at hnot
  exact absurd hnot (by decide)

/-! ## What the calls keep -/

variable {t : DeviceTable}

theorem agrees_set (h : Agrees t) {i : Nat} {e e' : TableEntry} (hi : t.table[i]? = some e)
    (hid : e'.uniqueId = e.uniqueId) (hext : e'.extAddress = e.extAddress) (hmade : WellMade e') :
    Agrees ⟨t.table.set i e', storeDeviceEntry t.db e'⟩ := by
  have hlt : i < t.table.length := (List.getElem?_eq_some_iff.mp hi).1
  have hsplit : t.table.Perm (e :: t.table.eraseIdx i) := KeyedList.perm_cons_eraseIdx hi
  have hset : (t.table.set i e').Perm (e' :: t.table.eraseIdx i) :=
    set_perm_cons_eraseIdx hlt e'
  refine ⟨?_, ?_, ?_⟩
  · refine (hset.map _).nodup_iff.mpr ?_
    have hbefore := (hsplit.map fun e => e.extAddress).nodup_iff.mp h.nodup
    rw [map_cons] at hbefore ⊢
    rwa [hext]
  · intro x hx
    rcases mem_cons.mp (hset.mem_iff.mp hx) with rfl | hx
    · exact hmade
    · exact h.wellMade x (mem_of_mem_eraseIdx hx)
  · rw [storeDeviceEntry_eq hmade]
    have hrows : t.db.Perm (rowOf e :: (t.table.eraseIdx i).map rowOf) :=
      h.rows.trans (hsplit.map rowOf)
    have hnodup := (hrows.map DeviceRow.uniqueid).nodup_iff.mp
      ((h.rows.map DeviceRow.uniqueid).nodup_iff.mpr (nodup_rows h.nodup h.wellMade))
    have hkey : (rowOf e').uniqueid = (rowOf e).uniqueid := congrArg cString hid
    exact (KeyedList.replace_perm hrows hnodup hkey).trans (hset.map rowOf).symm

theorem agrees_append (h : Agrees t) (hmade : WellMade e)
    (hnew : ∀ x ∈ t.table, x.extAddress ≠ e.extAddress) :
    Agrees ⟨t.table ++ [e], storeDeviceEntry t.db e⟩ := by
  have hperm : (t.table ++ [e]).Perm (e :: t.table) := perm_append_singleton e t.table
  refine ⟨?_, ?_, ?_⟩
  · refine (hperm.map _).nodup_iff.mpr ?_
    rw [map_cons, nodup_cons]
    refine ⟨?_, h.nodup⟩
    intro hmem
    obtain ⟨x, hx, hsame⟩ := mem_map.mp hmem
    exact hnew x hx hsame
  · intro x hx
    rcases mem_cons.mp (hperm.mem_iff.mp hx) with rfl | hx
    · exact hmade
    · exact h.wellMade x hx
  · rw [storeDeviceEntry_eq hmade]
    have hfresh : ∀ row ∈ t.db, row.uniqueid ≠ (rowOf e).uniqueid := by
      intro row hrow hsame
      obtain ⟨x, hx, rfl⟩ := mem_map.mp (h.rows.mem_iff.mp hrow)
      refine hnew x hx ?_
      have haddress := (h.wellMade x hx).address
      rw [show cString x.uniqueId = cString e.uniqueId from hsame, hmade.address] at haddress
      exact haddress.symm
    exact (KeyedList.replace_new hfresh).trans
      ((h.rows.cons (rowOf e)).trans (hperm.map rowOf).symm)

theorem agrees_erase (h : Agrees t) (uniqueId : List UInt8) : Agrees (t.erase uniqueId).1 := by
  unfold erase
  split
  · exact h
  · rename_i i hfound
    obtain ⟨e, hi, -⟩ := getIterator_some hfound
    have hlt : i < t.table.length := (List.getElem?_eq_some_iff.mp hi).1
    rw [hi]
    have hsplit : t.table.Perm (e :: t.table.eraseIdx i) := KeyedList.perm_cons_eraseIdx hi
    have herase := KeyedList.swapErase_perm hlt
    refine ⟨?_, ?_, ?_⟩
    · refine (herase.map _).nodup_iff.mpr ?_
      exact (List.Sublist.map _ (eraseIdx_sublist _ _)).nodup h.nodup
    · intro x hx
      exact h.wellMade x (mem_of_mem_eraseIdx (herase.mem_iff.mp hx))
    · have hrows : t.db.Perm (rowOf e :: (t.table.eraseIdx i).map rowOf) :=
        h.rows.trans (hsplit.map rowOf)
      have hnodup := (hrows.map DeviceRow.uniqueid).nodup_iff.mp
        ((h.rows.map DeviceRow.uniqueid).nodup_iff.mpr (nodup_rows h.nodup h.wellMade))
      exact (KeyedList.remove_perm hrows hnodup).trans (herase.map rowOf).symm

theorem wellMade_new {uniqueId : QString} (haddress : extAddressFromUniqueId uniqueId ≠ 0)
    (hshort : uniqueId.length ≤ maxUniqueIdLength) (flags : UInt32) (alarmSystemId : UInt8) :
    WellMade
      { uniqueId := (QString.toUtf8 uniqueId).take uniqueId.length
        extAddress := extAddressFromUniqueId uniqueId, alarmSystemId := alarmSystemId.toNat
        flags := flags.toNat, armMask := armMaskOf flags.toNat } := by
  have hlength : ((QString.toUtf8 uniqueId).take uniqueId.length).length = uniqueId.length := by
    rw [length_take]
    exact Nat.min_eq_left (QString.length_le_length_toUtf8 uniqueId)
  have hlong : ¬ uniqueId.length < 23 := by
    intro hless
    unfold extAddressFromUniqueId at haddress
    exact haddress (if_pos hless)
  refine ⟨?_, haddress, ?_, ?_, flags.toNat_lt, alarmSystemId.toNat_lt, rfl⟩
  · unfold extAddressFromUniqueId at haddress ⊢
    rw [if_neg hlong] at haddress ⊢
    cases hdigits : collectHex uniqueId [] with
    | none =>
      rw [hdigits] at haddress
      exact absurd rfl haddress
    | some digits =>
      have hstored := collectHex_storedText hdigits (Nat.le_refl uniqueId.length)
      unfold storedText at hstored
      rw [hstored]
  · rw [hlength]
    exact Nat.not_lt.mp hlong
  · rw [hlength]
    exact hshort

theorem agrees_put (h : Agrees t) (uniqueId : QString) (flags : UInt32) (alarmSystemId : UInt8) :
    Agrees (t.put uniqueId flags alarmSystemId).1 := by
  unfold put
  simp only
  split
  · exact h
  · rename_i haddress
    split
    · rename_i i hfound
      obtain ⟨e, hi, hext⟩ := getIterator_some hfound
      rw [hi]
      simp only
      split
      · have hmade := h.wellMade e (mem_of_getElem? hi)
        exact agrees_set h hi rfl rfl
          ⟨hmade.address, hmade.extAddress, hmade.long, hmade.short, flags.toNat_lt,
            alarmSystemId.toNat_lt, rfl⟩
      · exact h
    · rename_i hnone
      split
      · exact h
      · rename_i hshort
        exact agrees_append h
          (wellMade_new haddress (Nat.le_of_lt_succ (Nat.not_le.mp hshort)) flags alarmSystemId)
          (getIterator_none hnone)

theorem agrees_step (h : Agrees t) (a : Action) : Agrees (t.step a) := by
  cases a with
  | put uniqueId flags alarmSystemId => exact agrees_put h uniqueId flags alarmSystemId
  | erase uniqueId => exact agrees_erase h uniqueId

theorem agrees_init : Agrees {} where
  nodup := nodup_nil
  wellMade := fun _ he => absurd he not_mem_nil
  rows := List.Perm.refl _

theorem agrees_run (acts : List Action) : Agrees (Transition.run step {} acts) :=
  Transition.run_invariant (P := Agrees) (fun _ a h => agrees_step h a) agrees_init acts

/-! ## Loading -/

theorem mem_load {db : List DeviceRow} : e ∈ load [] db ↔ ∃ row ∈
    db, (row.uniqueid ≠ [] ∧ row.alarmSystemId ≠ 0) ∧ row.uniqueid.length ≤ maxUniqueIdLength ∧
      loadEntry row = e := by
  have hload : load [] db = ((dbLoad db).filter fun row =>
      decide (row.uniqueid.length ≤ maxUniqueIdLength)).map loadEntry := by
    unfold load
    split
    · rename_i hempty
      rw [hempty]
      rfl
    · rfl
  rw [hload]
  unfold dbLoad
  simp only [mem_map, mem_filter, decide_eq_true_eq, and_assoc]

/-- **Table and database.**  After every sequence of calls the table has one entry for an address
at most, and loading the rows gives just its entries exactly if each entry belongs to an alarm
system and has no NUL in its unique id. -/
theorem load_run_iff (acts : List Action) :
    ((Transition.run step {} acts).table.map fun e => e.extAddress).Nodup ∧
      ((∀ e, e ∈ load [] (Transition.run step {} acts).db ↔ e ∈
          (Transition.run step {} acts).table) ↔
        ∀ e ∈ (Transition.run step {} acts).table, e.alarmSystemId ≠ 0 ∧ 0 ∉ e.uniqueId) := by
  have h := agrees_run acts
  generalize Transition.run step {} acts = t at h
  refine ⟨h.nodup, ?_, ?_⟩
  · intro hsame e he
    obtain ⟨row, hrow, hvalid, -, rfl⟩ := mem_load.mp ((hsame e).mpr he)
    obtain ⟨x, hx, rfl⟩ := mem_map.mp (h.rows.mem_iff.mp hrow)
    refine ⟨?_, zero_not_mem_cString x.uniqueId⟩
    show x.alarmSystemId % 256 ≠ 0
    rw [Nat.mod_eq_of_lt (h.wellMade x hx).alarmSystemId]
    exact hvalid.2
  · intro hgood e
    constructor
    · intro he
      obtain ⟨row, hrow, -, -, rfl⟩ := mem_load.mp he
      obtain ⟨x, hx, rfl⟩ := mem_map.mp (h.rows.mem_iff.mp hrow)
      rwa [loadEntry_rowOf (h.wellMade x hx) (hgood x hx).2]
    · intro he
      have hmade := h.wellMade e he
      refine mem_load.mpr ⟨rowOf e, h.rows.mem_iff.mpr (mem_map_of_mem he), ⟨?_, ?_⟩, ?_,
        loadEntry_rowOf hmade (hgood e he).2⟩
      · intro hempty
        have haddress := hmade.address
        rw [show cString e.uniqueId = [] from hempty] at haddress
        exact hmade.extAddress haddress.symm
      · exact (hgood e he).1
      · exact (length_cString_le e.uniqueId).trans hmade.short

/-- An entry of no alarm system is in the table, and it is not loaded. -/
theorem noAlarmSystem_not_loaded :
    ¬ ∀ e, e ∈ load [] (Transition.run step {}
        [.put (QString.ofLatin1 "00:11:22:33:44:55:66:77-01") 0 0]).db ↔
      e ∈ (Transition.run step {}
        [.put (QString.ofLatin1 "00:11:22:33:44:55:66:77-01") 0 0]).table := by
  intro h
  have hempty : load [] (Transition.run step {}
      [.put (QString.ofLatin1 "00:11:22:33:44:55:66:77-01") 0 0]).db = [] := by decide +kernel
  have hsome : (Transition.run step {}
      [.put (QString.ofLatin1 "00:11:22:33:44:55:66:77-01") 0 0]).table ≠ [] := by decide +kernel
  obtain ⟨e, he⟩ := exists_mem_of_ne_nil _ hsome
  have hmem := (h e).mpr he
  rw [hempty] at hmem
  exact absurd hmem not_mem_nil

variable {x : Nat}

/-- `AS_DeviceTable::get` -/
def get (t : DeviceTable) (extAddress : Nat) : Option TableEntry :=
  t.table.find? fun e => e.extAddress = extAddress

def held (e : TableEntry) : Nat × Nat := (e.flags, e.alarmSystemId)

/-- What a call makes of the flags and the alarm system that are held for an address -/
def heldAfter (x : Nat) (held : Option (Nat × Nat)) : Action → Option (Nat × Nat)
  | .put uniqueId flags alarmSystemId =>
    if extAddressFromUniqueId uniqueId = x ∧
        (held.isSome ∨ uniqueId.length ≤ maxUniqueIdLength) then
      some (flags.toNat, alarmSystemId.toNat)
    else held
  | .erase uniqueId =>
    if extAddressFromUniqueId (QString.ofLatin1Octets uniqueId) = x then none else held

theorem get_front (h : Agrees t) {i : Nat} (hi : t.table[i]? = some e) (x : Nat) :
    t.get x = if e.extAddress = x then some e
      else (t.table.eraseIdx i).find? fun e => e.extAddress = x := by
  unfold get
  rw [KeyedList.find?_perm (KeyedList.perm_cons_eraseIdx hi) h.nodup, find?_cons]
  by_cases hx : e.extAddress = x <;> simp [hx]

theorem get_none (hnone : ∀ e ∈ table, e.extAddress ≠ x) :
    (table.find? fun e => e.extAddress = x) = none :=
  find?_eq_none.mpr fun e he => by simpa using hnone e he

theorem get_put (h : Agrees t) (hx : x ≠ 0) (uniqueId : QString) (flags : UInt32)
    (alarmSystemId : UInt8) : ((t.put uniqueId flags alarmSystemId).1.get x).map held =
      heldAfter x ((t.get x).map held) (.put uniqueId flags alarmSystemId) := by
  have hafter := agrees_put h uniqueId flags alarmSystemId
  unfold put at hafter ⊢
  unfold heldAfter
  simp only at hafter ⊢
  by_cases haddress : extAddressFromUniqueId uniqueId = 0
  · rw [if_pos haddress, if_neg]
    exact fun hboth => hx (hboth.1.symm.trans haddress)
  rw [if_neg haddress] at hafter ⊢
  cases hfound : getIterator t.table (extAddressFromUniqueId uniqueId) with
  | some i =>
    obtain ⟨e, hi, hext⟩ := getIterator_some hfound
    have hlt : i < t.table.length := (List.getElem?_eq_some_iff.mp hi).1
    simp only [hfound, hi] at hafter ⊢
    split_ifs at hafter ⊢ with hchanged hboth hboth
    · rw [get_front hafter (getElem?_set_self hlt), if_pos (hext.trans hboth.1)]
      rfl
    · have hne : e.extAddress ≠ x := fun heq =>
        hboth ⟨hext.symm.trans heq, .inl (by rw [get_front h hi, if_pos heq]; rfl)⟩
      rw [get_front hafter (getElem?_set_self hlt), get_front h hi, if_neg hne, if_neg hne,
        eraseIdx_set_eq]
    · rw [get_front h hi, if_pos (hext.trans hboth.1)]
      obtain ⟨hflags, hid⟩ := not_or.mp hchanged
      simp [held, not_not.mp hflags, not_not.mp hid]
    · rfl
  | none =>
    have hnone := getIterator_none hfound
    simp only [hfound] at hafter ⊢
    split_ifs at hafter ⊢ with hlong hboth hboth
    · rw [← hboth.1, get, get_none hnone] at hboth
      obtain hheld | hshort := hboth.2
      · cases hheld
      · exact absurd hshort (Nat.not_le.mpr hlong)
    · rfl
    · obtain ⟨rfl, -⟩ := hboth
      rw [get, find?_append, get_none hnone, Option.none_or]
      simp [held]
    · have hne : extAddressFromUniqueId uniqueId ≠ x := fun heq =>
        hboth ⟨heq, .inr (Nat.le_of_lt_succ (Nat.not_le.mp hlong))⟩
      rw [get, find?_append, find?_cons_of_neg (by simpa using hne), find?_nil, Option.or_none]
      rfl

theorem get_erase (h : Agrees t) (uniqueId : List UInt8) :
    ((t.erase uniqueId).1.get x).map held = heldAfter x ((t.get x).map held) (.erase uniqueId) := by
  unfold erase heldAfter
  cases hfound : getIterator t.table (extAddressFromUniqueId (QString.ofLatin1Octets uniqueId)) with
  | none =>
    simp only
    split_ifs with hx
    · rw [get, get_none (hx ▸ getIterator_none hfound)]
      rfl
    · rfl
  | some i =>
    obtain ⟨e, hi, hext⟩ := getIterator_some hfound
    have hlt : i < t.table.length := (List.getElem?_eq_some_iff.mp hi).1
    have hnodup := ((KeyedList.perm_cons_eraseIdx hi).map fun e => e.extAddress).nodup_iff.mp h.nodup
    rw [map_cons, nodup_cons] at hnodup
    have hrest := KeyedList.find?_perm (KeyedList.swapErase_perm hlt)
      (((KeyedList.swapErase_perm hlt).map _).nodup_iff.mpr hnodup.2) x
    simp only [hi]
    rw [get, hrest, get_front h hi, hext]
    split_ifs with hx
    · rw [get_none fun e' he' heq => hnodup.1 (mem_map.mpr ⟨e', he', heq.trans (hx ▸ hext.symm)⟩)]
      rfl
    · rfl

end DeviceTable
end DeconzRest
