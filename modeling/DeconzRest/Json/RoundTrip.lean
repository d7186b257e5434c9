import DeconzRest.Json.Octets
import DeconzRest.Json.Reread

/-!
# `Json::parse` undoes `Json::serialize`

A `Plain` variant is built from null, booleans, well-formed texts, lists and maps.  What
is read in its serialization is the variant itself.
-/

namespace DeconzRest
namespace Json

open QString

variable {D : Type}

/-! ## Plain variants -/

mutual

/-- Built from null, booleans, well-formed texts, lists, and maps in the order of
their keys. -/
def Plain : QVariant D → Prop
  | .invalid => True
  | .bool _ => True
  | .int _ => False
  | .double _ => False
  | .string s => QString.WellFormed s
  | .list values => PlainList values
  | .map entries => PlainEntries entries ∧ (entries.map Prod.fst).Pairwise (· < ·)

def PlainList : List (QVariant D) → Prop
  | [] => True
  | v :: values => Plain v ∧ PlainList values

def PlainEntries : List (QString × QVariant D) → Prop
  | [] => True
  | (key, v) :: entries => QString.WellFormed key ∧ Plain v ∧ PlainEntries entries

end

theorem Plain.every {v : QVariant D} (hv : Plain v) :
    Every { int := fun _ => False, double := fun _ => False, text := QString.WellFormed,
            keys := fun keys => keys.Pairwise (· < ·) } v := by
  have hlist : ∀ values : List (QVariant D), PlainList values → ∀ v ∈ values, Plain v := by
    intro values
    induction values with
    | nil => simp
    | cons v values ih =>
      intro h
      rw [PlainList] at h
      rw [List.forall_mem_cons]
      exact ⟨h.1, ih h.2⟩
  have hentries : ∀ entries : List (QString × QVariant D), PlainEntries entries → ∀ e ∈
      entries, QString.WellFormed e.1 ∧ Plain e.2 := by
    intro entries
    induction entries with
    | nil => simp
    | cons e entries ih =>
      intro h
      obtain ⟨key, v⟩ := e
      rw [PlainEntries] at h
      rw [List.forall_mem_cons]
      exact ⟨⟨h.1, h.2.1⟩, ih h.2.2⟩
  induction v using variant_induction with
  | invalid => exact trivial
  | bool b => exact trivial
  | int n =>
    rw [Plain] at hv
    exact hv
  | double d =>
    rw [Plain] at hv
    exact hv
  | string s =>
    rw [Plain] at hv
    exact hv
  | list values ih =>
    rw [Plain] at hv
    rw [Every, everyValue_iff]
    exact fun v hmem => ih v hmem (hlist values hv v hmem)
  | map entries ih =>
    rw [Plain] at hv
    rw [Every, everyEntry_iff]
    refine ⟨?_, hv.2⟩
    intro e hmem
    have he := hentries entries hv.1 e hmem
    exact ⟨he.1, ih e hmem he.2⟩

/-- **Round trip.**  Every plain variant comes back, with success, from the UTF-8
text that `serialize` writes for it. -/
theorem parse_serialize (qt : Qt D) (v : QVariant D) (hv : Plain v) :
    parse qt (fromUtf8 (serialize qt v)) = (v, true) := by
  have hreadBack : Every (Parts.doubles (ReadBack qt)) v :=
    hv.every.imp (fun _ _ => trivial) (fun _ h => h.elim) (fun _ _ => trivial) fun _ _ => trivial
  have hself : reread repair qt v = v :=
    reread_eq_self qt (hv.every.imp (fun _ h => h) (fun _ _ => trivial)
      (fun _ h => h.repair_eq) fun _ h => h)
  rw [parse_serialize_readBack hreadBack, hself]

/-- A map with an escaped key, a nested list, and a text with a quote, a backslash,
a line feed, a NUL and a character outside the BMP. -/
def sample : QVariant Int :=
  .map [(ofLatin1 "a\"b", .list [.invalid, .bool true, .map []]),
    (ofLatin1 "c", .string (ofChars ['"', '\\', '\n', '\x00', '😀']))]

theorem parse_serialize_sample :
    Plain sample ∧ parse Qt.whole (QString.fromUtf8 (serialize Qt.whole sample)) = (sample, true) := by
  have hplain : Plain sample := by
    simp only [sample, Plain, PlainEntries, PlainList, and_true]
    refine ⟨⟨⟨['a', '"', 'b'], rfl⟩, ⟨trivial, trivial, trivial, List.Pairwise.nil⟩,
      ⟨['c'], rfl⟩, ⟨_, rfl⟩⟩, ?_⟩
    decide
  exact ⟨hplain, parse_serialize Qt.whole sample hplain⟩

end Json
end DeconzRest
