import DeconzRest.Json.Cost
import DeconzRest.Json.Octets
import DeconzRest.Json.Reread
import DeconzRest.Qt.Parts
import DeconzRest.Rule.Requests

/-!
# Storage of rule actions

`Rule::actionsToString` puts the text of the actions together without any escape, and
`Rule::jsonToActions` reads it with the JSON parser.  The body of an action is the
serialization of the submitted object, from which `setBody` has taken the blanks.

The body of an action is the `text` of the submitted object with every string and key
`stored`: behind UTF-8 and without blanks (`body_newAction`).  The body denotes the
submitted object if and only if this changes nothing in it and all its numbers are finite
(`parse_body_iff`).  With such bodies, and addresses that need no escape, the text of the
actions is read action by action (`parse_actionsToString`).
-/

namespace DeconzRest

open List

open QVariant (value contains)
open QString
open Json (Parts Every Numbers ReadBack reread text textTail textEntriesTail sanitizeString)

namespace Rule

/-- The part of one action in `Rule::actionsToString`. -/
def actionText (a : RuleAction) : QString :=
  ofLatin1 "\x7b\"address\":" ++ (ofLatin1 "\"" ++ a.address ++ ofLatin1 "\",") ++
    (ofLatin1 "\"body\":" ++ a.body ++ ofLatin1 ",") ++
    (ofLatin1 "\"method\":\"" ++ a.method ++ ofLatin1 "\"\x7d,")

/-- `Rule::actionsToString`; `chop(1)` takes the last comma, or the bracket. -/
def actionsToString (actions : List RuleAction) : QString :=
  (ofLatin1 "[" ++ actions.flatMap actionText).dropLast ++ ofLatin1 "]"

variable {D : Type}

/-- `Rule::jsonToActions`; each action is built as in `createRule`. -/
def jsonToActions (env : RuleEnv D) (json : QString) : List RuleAction :=
  let var := Json.parse env.qt json
  if var.2 = false then [] else var.1.toList.map (RuleRequest.newAction env)

end Rule

namespace RuleRequest

variable {D : Type}

/-! ## Without blanks -/

def withoutBlanks (s : QString) : QString := s.filter fun c => c ≠ unit ' '

def stored (s : QString) : QString := withoutBlanks (repair s)

variable {s : QString}

theorem withoutBlanks_eq_self (hs : unit ' ' ∉ s) : withoutBlanks s = s := by
  unfold withoutBlanks
  rw [filter_eq_self]
  intro c hc
  refine decide_eq_true ?_
  rintro rfl
  exact hs hc

theorem withoutBlanks_append (s t : QString) :
    withoutBlanks (s ++ t) = withoutBlanks s ++ withoutBlanks t := filter_append ..

theorem withoutBlanks_escape (c : QChar) :
    withoutBlanks (Json.escape c) = (withoutBlanks [c]).flatMap Json.escape := by
  by_cases hc : c = unit ' '
  · subst hc
    decide
  · have hkeep : withoutBlanks [c] = [c] := withoutBlanks_eq_self (by simpa using Ne.symm hc)
    rw [hkeep, flatMap_singleton]
    apply withoutBlanks_eq_self
    -- every escape is free of blanks, and stands for itself where it is none
    unfold Json.escape
    split_ifs
    · decide
    · decide
    · decide
    · decide
    · decide
    · decide
    · decide
    · simpa using Ne.symm hc

theorem withoutBlanks_sanitizeString (s : QString) :
    withoutBlanks (sanitizeString s) = sanitizeString (withoutBlanks s) := by
  have hquote : withoutBlanks [unit '"'] = [QString.unit '"'] := by decide
  have hescape : withoutBlanks (s.flatMap Json.escape) = (withoutBlanks s).flatMap Json.escape := by
    induction s with
    | nil => rfl
    | cons c s ih =>
      rw [flatMap_cons, withoutBlanks_append, ih, withoutBlanks_escape, ← flatMap_append,
        ← withoutBlanks_append, singleton_append]
  rw [Json.sanitizeString_eq, Json.sanitizeString_eq, ← singleton_append, withoutBlanks_append,
    withoutBlanks_append, hquote, hescape]
  rfl

theorem withoutBlanks_number {t : String} (h : Json.IsNumberText t) :
    withoutBlanks (ofLatin1 t) = ofLatin1 t := by
  obtain ⟨u, us, htext, -, -, hall⟩ := h.units
  apply withoutBlanks_eq_self
  rw [htext]
  intro hmem
  exact absurd (all_eq_true.mp hall _ hmem) (by decide)

variable {qt : Qt D}

theorem withoutBlanks_numberText {d : D} (hd : ReadBack qt d ∨ Json.Unreadable qt d) :
    withoutBlanks (Json.numberText qt d) = Json.numberText qt d := by
  rcases hd with hd | hd
  · obtain ⟨t, htext, ht, -⟩ := hd.text_eq
    rw [htext, withoutBlanks_number ht]
  · rcases hd.text_eq with h | h | h
    · rw [h]
      decide
    · rw [h]
      decide
    · rw [h]
      decide

/-- **Blanks are taken out string by string.** -/
theorem withoutBlanks_text (f : QString → QString) {v : QVariant D} (hv : Every (Json.written qt) v)
    :
    withoutBlanks (text f qt v) = text (fun s => withoutBlanks (f s)) qt v := by
  have hcomma : ∀ s : QString, withoutBlanks (unit ',' :: s) = unit ',' ::
      withoutBlanks s := fun s => rfl
  induction v using Json.variant_induction with
  | invalid =>
    rw [text, text]
    decide
  | bool b =>
    rw [text, text]
    cases b
    · decide
    · decide
  | int n =>
    rw [text, text]
    exact withoutBlanks_number (Json.isNumberText_int n)
  | double d =>
    rw [text, text]
    exact withoutBlanks_numberText hv
  | string s =>
    rw [text, text, withoutBlanks_sanitizeString]
  | list values ih =>
    rw [Every, Json.everyValue_iff] at hv
    -- the values behind the first one, each behind a comma
    have htail : ∀ values : List (QVariant D),
        (∀ v ∈ values, withoutBlanks (text f qt v) = text (fun s => withoutBlanks (f s)) qt v) →
        withoutBlanks (textTail f qt values) =
          textTail (fun s => withoutBlanks (f s)) qt values := by
      intro values
      induction values with
      | nil =>
        intro _
        rw [textTail, textTail]
        rfl
      | cons v values ihTail =>
        intro h
        rw [forall_mem_cons] at h
        rw [textTail, textTail, hcomma, withoutBlanks_append, h.1, ihTail h.2]
    have hall := fun v hmem => ih v hmem (hv v hmem)
    cases values with
    | nil =>
      rw [text, text]
      decide
    | cons v values =>
      rw [forall_mem_cons] at hall
      have hopen : ∀ s : QString, withoutBlanks (unit '[' :: s) =
          unit '[' :: withoutBlanks s := fun s => rfl
      rw [text, text, hopen, withoutBlanks_append, withoutBlanks_append, hall.1,
        htail values hall.2]
      rfl
  | map entries ih =>
    rw [Every, Json.everyEntry_iff] at hv
    have hcolon : ∀ s : QString, withoutBlanks (unit ':' :: s) = unit ':' ::
        withoutBlanks s := fun s => rfl
    -- the entries behind the first one, each behind a comma
    have htail : ∀ entries : List (QString × QVariant D),
        (∀ e ∈ entries, withoutBlanks (text f qt e.2) =
          text (fun s => withoutBlanks (f s)) qt e.2) →
        withoutBlanks (textEntriesTail f qt entries) =
          textEntriesTail (fun s => withoutBlanks (f s)) qt entries := by
      intro entries
      induction entries with
      | nil =>
        intro _
        rw [textEntriesTail, textEntriesTail]
        rfl
      | cons e entries ihTail =>
        intro h
        obtain ⟨key, v⟩ := e
        rw [forall_mem_cons] at h
        rw [textEntriesTail, textEntriesTail, hcomma, withoutBlanks_append,
          withoutBlanks_sanitizeString, hcolon, withoutBlanks_append, h.1, ihTail h.2]
    have hall := fun e hmem => ih e hmem (hv.1 e hmem).2
    cases entries with
    | nil =>
      rw [text, text]
      decide
    | cons e entries =>
      obtain ⟨key, v⟩ := e
      rw [forall_mem_cons] at hall
      have hopen : ∀ s : QString, withoutBlanks (unit '{' :: s) =
          unit '{' :: withoutBlanks s := fun s => rfl
      rw [text, text, hopen, withoutBlanks_append, withoutBlanks_sanitizeString, hcolon,
        withoutBlanks_append, withoutBlanks_append, hall.1, htail entries hall.2]
      rfl

/-! ## The body of an action -/

def CleanText (s : QString) : Prop := unit ' ' ∉ s ∧ QString.WellFormed s

theorem weight_withoutBlanks (s : QString) :
    weight (withoutBlanks s) ≤ weight s ∧
      (weight (withoutBlanks s) = weight s → withoutBlanks s = s) := by
  have hblank : unit ' ' ≠ unit '?' := by decide
  unfold weight withoutBlanks
  induction s with
  | nil => exact ⟨Nat.le_refl _, fun _ => rfl⟩
  | cons c s ih =>
    by_cases hc : c = unit ' '
    · subst hc
      rw [filter_cons_of_neg (by simp), countP_cons_of_pos (by simpa using hblank)]
      exact ⟨by omega, fun h => by omega⟩
    · rw [filter_cons_of_pos (by simpa using hc), countP_cons, countP_cons]
      refine ⟨by omega, fun h => ?_⟩
      rw [ih.2 (by omega)]

theorem weight_stored (s : QString) :
    weight (stored s) ≤ weight s ∧ (weight (stored s) = weight s → stored s = s) := by
  have hrepair := weight_repair s
  have hblanks := weight_withoutBlanks (repair s)
  unfold stored
  refine ⟨by omega, fun h => ?_⟩
  rw [hblanks.2 (by omega), hrepair.2 (by omega)]

theorem stored_eq_self_iff : stored s = s ↔ CleanText s := by
  constructor
  · intro h
    have hrepair := weight_repair s
    have hblanks := weight_withoutBlanks (repair s)
    have hweight := congrArg weight h
    unfold stored at h hweight
    have hsame : repair s = s := hrepair.2 (by omega)
    refine ⟨?_, repair_eq_self_iff.mp hsame⟩
    rw [hsame] at h
    intro hmem
    rw [← h, withoutBlanks, mem_filter] at hmem
    exact absurd hmem.2 (by decide)
  · rintro ⟨hblank, hwell⟩
    unfold stored
    rw [hwell.repair_eq, withoutBlanks_eq_self hblank]

/-- What storage asks of a body: numbers are finite, texts without blanks and unpaired
surrogates. -/
def cleanBody (finite : D → Prop) : Parts D where
  double := finite
  text := CleanText

section Body

variable {env : RuleEnv D} {finite : D → Prop} (hqt : Numbers env.qt finite)
include hqt

theorem body_newAction (action : QVariant D) :
    (newAction env action).body = text stored env.qt (.map (value action.toMap "body").toMap) := by
  have hwritten := Json.written_of_numbers hqt (.map (value action.toMap "body").toMap)
  have hset : (newAction env action).body = withoutBlanks (fromUtf8
      (Json.serialize env.qt (.map (value action.toMap "body").toMap))) := by
    unfold newAction RuleAction.setMethod
    simp only
    split
    · rfl
    · rfl
  rw [hset, Json.fromUtf8_serialize hwritten, withoutBlanks_text repair hwritten]
  rfl

theorem reread_stored {body : List (QString × QVariant D)}
    (hparsed : Every Parts.parsed (.map body)) (h : Every (cleanBody finite) (.map body)) :
    Every (Parts.doubles (ReadBack env.qt)) (.map body) ∧ reread stored env.qt (.map body) =
      .map body := by
  refine ⟨?_, ?_⟩
  · exact h.imp (fun _ h => h) (fun d hd => hqt.number_finite d hd) (fun _ _ => trivial)
      fun _ h => h
  · refine Json.reread_eq_self env.qt ?_
    exact hparsed.both h (fun _ h _ => h) (fun _ _ _ => trivial)
      (fun s _ hs => stored_eq_self_iff.mpr hs) fun _ h _ => h

/-- **When the stored body denotes the submitted object.** -/
theorem parse_body_iff {body : List (QString × QVariant D)}
    (hparsed : Every Parts.parsed (.map body)) :
    Json.parse env.qt (text stored env.qt (.map body)) = (.map body, true) ↔
      Every (cleanBody finite) (.map body) := by
  constructor
  · intro h
    have hread : Every (Parts.doubles (ReadBack env.qt)) (.map body) := by
      by_contra hnot
      have hrefused := Json.parse_text_refused stored (fun d => hqt.cases d) hnot
        (by intro d hd; cases hd)
      rw [h] at hrefused
      cases hrefused
    have hself := Json.reread_eq_self_iff env.qt (fun s => (weight_stored s).1)
      (fun s => (weight_stored s).2) hparsed
    rw [Json.parse_text stored hread, Prod.mk.injEq] at h
    refine hread.both (hself.mp h.1) (fun _ _ _ => trivial) ?_ ?_ fun _ _ _ => trivial
    · exact fun d hd _ => hqt.readBack_iff.mp hd
    · exact fun s _ hs => stored_eq_self_iff.mp hs
  · intro h
    obtain ⟨hread, hself⟩ := reread_stored hqt hparsed h
    rw [Json.parse_text stored hread, hself]

end Body

/-! ## The text of the actions -/

/-- The text is read as the value, in front of anything that continues no number. -/
def ReadsAs (qt : Qt D) (t : QString) (v : QVariant D) : Prop :=
  ∀ fuel rest, 2 * t.length ≤ fuel → Json.EndsNumber rest → Json.parseValue qt fuel (t ++ rest) =
    ⟨v, rest, true⟩

def Unescaped (s : QString) : Prop :=
  ∀ c ∈ s, c ≠ unit '"' ∧ c ≠ QString.unit '\\'

variable {env : RuleEnv D} {finite : D → Prop}

theorem readsAs_body (hqt : Numbers env.qt finite) {body : List (QString × QVariant D)}
    (hparsed : Every Parts.parsed (.map body)) (h : Every (cleanBody finite) (.map body)) :
    ReadsAs env.qt (text stored env.qt (.map body)) (.map body) := by
  obtain ⟨hread, hself⟩ := reread_stored hqt hparsed h
  intro fuel rest hfuel hrest
  rw [Json.parseValue_text stored _ hread fuel hfuel rest hrest, hself]

theorem parseValue_unescaped (qt : Qt D) (fuel : Nat) (hs : Unescaped s) (rest : QString) :
    Json.parseValue qt (fuel + 1) (QString.unit '"' :: (s ++ unit '"' :: rest)) =
      ⟨.string s, rest, true⟩ := by
  have htoken : Json.lookAhead (QString.unit '"' :: (s ++ unit '"' :: rest)) = .string :=
    rfl
  have hstart : (Json.eatWhitespace (QString.unit '"' :: (s ++ unit '"' :: rest))).drop 1 = s ++
      QString.unit '"' :: rest := rfl
  rw [Json.parseValue, htoken]
  simp only
  unfold Json.parseString
  rw [hstart, Json.stringLoop_plain qt [] s rest hs]
  rfl

def itemText (a : RuleAction) : QString :=
  unit '{' :: (sanitizeString (ofLatin1 "address") ++ unit ':' ::
    (unit '"' :: (a.address ++ QString.unit '"' :: (unit ',' ::
      (sanitizeString (ofLatin1 "body") ++ unit ':' :: (a.body ++
        (unit ',' :: (sanitizeString (ofLatin1 "method") ++ unit ':' ::
          (unit '"' :: (a.method ++ QString.unit '"' :: [unit '}']))))))))))

variable (a : RuleAction)

theorem actionText_eq : Rule.actionText a = itemText a ++ [unit ','] := by
  have haddress : ofLatin1 "\x7b\"address\":" =
      unit '{' :: (sanitizeString (ofLatin1 "address") ++ [unit ':']) := by
    decide
  have hbody : ofLatin1 "\"body\":" = sanitizeString (ofLatin1 "body") ++ [unit ':'] := by decide
  have hmethod : ofLatin1 "\"method\":\"" =
      sanitizeString (ofLatin1 "method") ++ [unit ':', unit '"'] := by
    decide
  have hquote : QString.ofLatin1 "\"" = [unit '"'] := rfl
  have hcomma : QString.ofLatin1 "," = [QString.unit ','] := rfl
  have hnext : QString.ofLatin1 "\"," = [unit '"', QString.unit ','] := rfl
  have hend : QString.ofLatin1 "\"\x7d," =
      [unit '"', QString.unit '}', QString.unit ','] := rfl
  unfold Rule.actionText itemText
  rw [haddress, hbody, hmethod, hquote, hcomma, hnext, hend]
  simp only [append_assoc, cons_append, nil_append]

theorem actionsToString_cons (actions : List RuleAction) :
    Rule.actionsToString (a :: actions) =
      QString.unit '[' :: (itemText a ++
        ((actions.flatMap fun a => QString.unit ',' :: itemText a) ++ [QString.unit ']'])) := by
  have hshift : ∀ (a : RuleAction) (actions : List RuleAction),
      (a :: actions).flatMap Rule.actionText = itemText a ++
        (actions.flatMap fun a => QString.unit ',' :: itemText a) ++ [QString.unit ','] := by
    intro a actions
    induction actions generalizing a with
    | nil => simp [actionText_eq]
    | cons b actions ih =>
      rw [flatMap_cons, ih b, actionText_eq, flatMap_cons]
      simp only [append_assoc, cons_append, nil_append]
  have hopen : QString.ofLatin1 "[" = [QString.unit '['] := rfl
  have hclose : QString.ofLatin1 "]" = [QString.unit ']'] := rfl
  unfold Rule.actionsToString
  rw [hshift, hopen, hclose, ← append_assoc, dropLast_concat]
  simp only [append_assoc, cons_append, nil_append]

def item (a : RuleAction) (body : QVariant D) : QVariant D :=
  .map [(QString.ofLatin1 "address", .string a.address), (QString.ofLatin1 "body", body),
    (QString.ofLatin1 "method", .string a.method)]

theorem readsAs_item {a : RuleAction} {body : QVariant D} (haddress : Unescaped a.address)
    (hmethod : Unescaped a.method) (hbody : ReadsAs qt a.body body) :
    ReadsAs qt (itemText a) (item a body) := by
  intro fuel rest hfuel _
  have hlength : a.body.length + 7 ≤ (itemText a).length := by
    unfold itemText
    simp only [length_cons, List.length_append]
    omega
  obtain ⟨n, rfl⟩ : ∃ n, fuel = n + 7 := ⟨fuel - 7, by omega⟩
  have hmap : Json.insert (QString.ofLatin1 "method") (.string a.method)
      (Json.insert (QString.ofLatin1 "body") body
        (Json.insert (QString.ofLatin1 "address") (.string a.address) [])) =
      [(QString.ofLatin1 "address", .string a.address), (QString.ofLatin1 "body", body),
        (QString.ofLatin1 "method", .string a.method)] := rfl
  unfold itemText item
  simp only [cons_append, append_assoc, nil_append]
  have hfirst := parseValue_unescaped qt (n + 4) haddress
    (QString.unit ',' :: (sanitizeString (QString.ofLatin1 "body") ++ QString.unit ':' ::
      (a.body ++ QString.unit ',' :: (sanitizeString (QString.ofLatin1 "method") ++
        QString.unit ':' :: QString.unit '"' :: (a.method ++ unit '"' ::
          QString.unit '}' :: rest)))))
  have hsecond := hbody (n + 3) (QString.unit ',' :: (sanitizeString (QString.ofLatin1 "method") ++
    QString.unit ':' :: QString.unit '"' :: (a.method ++ unit '"' ::
      QString.unit '}' :: rest))) (by omega) rfl
  have hthird := parseValue_unescaped qt n hmethod (QString.unit '}' :: rest)
  rw [Json.parseValue_curlyOpen, Json.parseObject_entry qt _ hfirst, Json.parseObject_comma,
    Json.parseObject_entry qt _ hsecond, Json.parseObject_comma,
    Json.parseObject_entry qt _ hthird, Json.parseObject_close, hmap]

theorem opensValue_itemText (rest : QString) :
    Json.OpensValue (Json.lookAhead (itemText a ++ rest)) := by
  have htoken : Json.lookAhead (itemText a ++ rest) = .curlyOpen := rfl
  rw [htoken]
  exact ⟨Json.Token.noConfusion, Json.Token.noConfusion⟩

variable {actions : List RuleAction}

theorem parseArray_items {items : List (QVariant D)}
    (h : List.Forall₂ (fun a v => ReadsAs qt (itemText a) v) actions items) (fuel : Nat)
    (hfuel : 2 * ((actions.flatMap fun a => QString.unit ',' :: itemText a).length + 1) ≤ fuel)
    (list : List (QVariant D)) :
    Json.parseArray qt fuel
        ((actions.flatMap fun a => QString.unit ',' :: itemText a) ++ [QString.unit ']']) list =
      ⟨.list (list ++ items), [], true⟩ := by
  induction h generalizing fuel list with
  | nil =>
    obtain ⟨n, rfl⟩ : ∃ n, fuel = n + 1 := ⟨fuel - 1, by omega⟩
    rw [flatMap_nil, nil_append, append_nil]
    exact Json.parseArray_close qt n [] list
  | cons hfirst hrest ih =>
    rename_i a v actions items
    rw [flatMap_cons, List.length_append, length_cons] at hfuel
    obtain ⟨n, rfl⟩ : ∃ n, fuel = n + 2 := ⟨fuel - 2, by omega⟩
    have hends : Json.EndsNumber
        ((actions.flatMap fun a => QString.unit ',' :: itemText a) ++ [QString.unit ']']) := by
      cases actions with
      | nil => rfl
      | cons b actions => rfl
    have hvalue := hfirst n _ (by omega) hends
    rw [flatMap_cons, cons_append, cons_append, append_assoc, Json.parseArray_comma,
      Json.parseArray_value qt (opensValue_itemText a _) hvalue,
      ih n (by omega), append_assoc]
    rfl

/-- **The text of the actions is read action by action.** -/
theorem parse_actionsToString {items : List (QVariant D)} (hne : actions ≠ [])
    (h : List.Forall₂ (fun a v => ReadsAs qt (itemText a) v) actions items) :
    Json.parse qt (Rule.actionsToString actions) = (.list items, true) := by
  cases h with
  | nil => exact absurd rfl hne
  | cons hfirst hrest =>
    rename_i a v actions items
    have hlength : (Rule.actionsToString (a :: actions)).length =
        (itemText a).length +
          (actions.flatMap fun a => QString.unit ',' :: itemText a).length + 2 := by
      rw [actionsToString_cons]
      simp only [length_cons, List.length_append, length_nil]
      omega
    have hends : Json.EndsNumber
        ((actions.flatMap fun a => QString.unit ',' :: itemText a) ++ [QString.unit ']']) := by
      cases actions with
      | nil => rfl
      | cons b actions => rfl
    unfold Json.parse
    rw [hlength, actionsToString_cons]
    generalize hfuel : 2 * ((itemText a).length +
      (actions.flatMap fun a => QString.unit ',' :: itemText a).length + 2) + 2 = fuel
    obtain ⟨n, rfl⟩ : ∃ n, fuel = n + 2 := ⟨fuel - 2, by omega⟩
    have hvalue := hfirst n _ (by omega) hends
    have htail := parseArray_items hrest n (by omega) ([] ++ [v])
    rw [Json.parseValue_squaredOpen, Json.parseArray_value qt (opensValue_itemText a _) hvalue,
      htail]
    rfl

/-! ## The actions of a new rule -/

def submitted (env : RuleEnv D) (content : QString) : List (QVariant D) :=
  (QVariant.value (bodyMap env content) "actions").toList

/-- `map["body"]` of an action. -/
def submittedBody (action : QVariant D) : QVariant D := QVariant.value action.toMap "body"

def isObject : QVariant D → Bool
  | .map _ => true
  | _ => false

theorem isObject_iff {v : QVariant D} : isObject v = true ↔ ∃ body, v = .map body := by
  constructor
  · intro h
    cases v with
    | map body => exact ⟨body, rfl⟩
    | invalid | bool _ | int _ | double _ | string _ | list _ => cases h
  · rintro ⟨body, rfl⟩
    rfl

/-- The actions are the same when they are read again, and the body of each denotes what was
submitted. -/
def ActionsSurvive (env : RuleEnv D) (actionsList : List (QVariant D))
    (actions : List RuleAction) : Prop :=
  Rule.jsonToActions env (Rule.actionsToString actions) = actions ∧
    List.Forall₂ (fun action a => Json.parse env.qt a.body = (submittedBody action, true))
      actionsList actions

def submittedAddress (env : RuleEnv D) (action : QVariant D) : QString :=
  (QVariant.value action.toMap "address").toString env.qt

theorem createRule_ok {store : RuleStore D} {apikey content : QString}
    (hok : (createRule env store apikey content).2.httpStatus = httpStatusOk) :
    checkActions env (submitted env content) = none ∧
      ∃ rule, (createRule env store apikey content).1.rules = store.rules ++ [rule] ∧ rule.actions =
        (submitted env content).map (newAction env) := by
  have hbad : ¬ httpStatusBadRequest = httpStatusOk := by decide
  unfold createRule at hok ⊢
  simp only at hok ⊢
  split at hok
  · exact absurd hok hbad
  · rename_i hparsed
    rw [if_neg hparsed]
    split at hok
    · exact absurd hok hbad
    · rename_i herrors
      rw [if_neg herrors]
      split at hok
      · rename_i c name hname
        split at hok
        · exact absurd hok hbad
        · rename_i hlength
          rw [if_neg hlength]
          unfold createNamed at hok ⊢
          simp only at hok ⊢
          cases hactions : checkActions env (submitted env content) with
          | some error =>
            unfold submitted bodyMap at hactions
            simp only [hactions] at hok
            exact absurd hok hbad
          | none =>
            refine ⟨rfl, ?_⟩
            unfold submitted bodyMap at hactions ⊢
            simp only [hactions] at hok ⊢
            split at hok
            · exact absurd hok hbad
            · rename_i hconditions
              exact ⟨_, rfl, rfl⟩
      · exact absurd hok hbad

variable {actionsList : List (QVariant D)} {action : QVariant D}

theorem isMethod_of_checkActions (h : checkActions env actionsList = none)
    (hmem : action ∈ actionsList) :
    RuleAction.isMethod ((QVariant.value action.toMap "method").toString env.qt) = true := by
  have hone := List.findSome?_eq_none_iff.mp h action hmem
  by_contra hnot
  rw [Bool.not_eq_true] at hnot
  unfold checkAction at hone
  simp only at hone
  split at hone
  · cases hone
  · split at hone
    · cases hone
    · cases hone

theorem unescaped_of_isMethod {method : QString} (h : RuleAction.isMethod method = true) :
    Unescaped method := by
  have hall : ∀ s : String, ((QString.ofLatin1 s).all fun c =>
      decide (c ≠ QString.unit '"') && decide (c ≠ unit '\\')) = true →
      Unescaped (ofLatin1 s) := by
    intro s hs c hc
    have hboth := all_eq_true.mp hs c hc
    rwa [Bool.and_eq_true, decide_eq_true_eq, decide_eq_true_eq] at hboth
  unfold RuleAction.isMethod at h
  rw [decide_eq_true_eq] at h
  rcases h with rfl | rfl | rfl | rfl
  · exact hall "POST" (by decide)
  · exact hall "PUT" (by decide)
  · exact hall "DELETE" (by decide)
  · exact hall "GET" (by decide)

theorem newAction_eq
    (hmethod : RuleAction.isMethod ((value action.toMap "method").toString env.qt) = true)
    :
    (newAction env action).address = submittedAddress env action ∧ (newAction env action).method =
      (value action.toMap "method").toString env.qt := by
  unfold newAction RuleAction.setMethod
  simp only [hmethod, if_true]
  exact ⟨rfl, trivial⟩

theorem newAction_congr {action other : QVariant D}
    (haddress : submittedAddress env action = submittedAddress env other)
    (hmethod : (value action.toMap "method").toString env.qt = (value other.toMap "method").toString env.qt)
    (hbody : submittedBody action = submittedBody other) :
    newAction env action = newAction env other := by
  unfold submittedAddress at haddress
  unfold submittedBody at hbody
  unfold newAction
  simp only [haddress, hmethod, hbody]

theorem newAction_item (env : RuleEnv D)
    (hmethod : RuleAction.isMethod ((value action.toMap "method").toString env.qt) = true)
    :
    newAction env (item (newAction env action) (submittedBody action)) = newAction env action := by
  obtain ⟨haddress, hmethod'⟩ := newAction_eq hmethod
  exact newAction_congr haddress hmethod' rfl

theorem jsonToActions_of_readsAs (hcheck : checkActions env actionsList = none)
    (h : ∀ action ∈ actionsList, Unescaped (submittedAddress env action) ∧
      ReadsAs env.qt (newAction env action).body (submittedBody action))
    :
    Rule.jsonToActions env (Rule.actionsToString (actionsList.map (newAction env))) =
      actionsList.map (newAction env) := by
  by_cases hnil : actionsList = []
  · -- the bracket that is left over is no list
    subst hnil
    rfl
  · have hitems : List.Forall₂ (fun a v => ReadsAs env.qt (itemText a) v)
        (actionsList.map (newAction env))
        (actionsList.map fun action => item (newAction env action) (submittedBody action)) := by
      rw [forall₂_map_left_iff, forall₂_map_right_iff, forall₂_same]
      intro action hmem
      have hisMethod := isMethod_of_checkActions hcheck hmem
      obtain ⟨haddress, hmethod⟩ := newAction_eq hisMethod
      refine readsAs_item ?_ ?_ (h action hmem).2
      · rw [haddress]
        exact (h action hmem).1
      · rw [hmethod]
        exact unescaped_of_isMethod hisMethod
    have hparse := parse_actionsToString (by simpa using hnil) hitems
    unfold Rule.jsonToActions
    rw [hparse]
    show List.map (newAction env) (actionsList.map _) = _
    rw [map_map]
    apply map_congr_left
    intro action hmem
    exact newAction_item env (isMethod_of_checkActions hcheck hmem)

theorem parsed_submittedBody (env : RuleEnv D) (content : QString)
    (hmem : action ∈ submitted env content) : Every Parts.parsed (submittedBody action) := by
  have hwhole : Every Parts.parsed (parseContent env.qt content).1 := by
    unfold parseContent
    split
    · exact trivial
    · exact Json.every_parse env.qt content
  exact ((hwhole.value "actions").of_mem_toList hmem).value "body"

/-! ## What the actions cost -/

/-- `QVariant::toString` as it is documented: of anything that is no string it is a number,
`true`, `false` or empty. -/
def PlainToText (qt : Qt D) : Prop :=
  ∀ v, (∀ s, v ≠ .string s) → unit '/' ∉ qt.toText v

theorem slash_of_checkActions (h : checkActions env actionsList = none)
    (hmem : action ∈ actionsList) : unit '/' ∈ submittedAddress env action := by
  have hone := List.findSome?_eq_none_iff.mp h action hmem
  apply mem_of_split
  unfold checkAction at hone
  simp only at hone
  split at hone
  · cases hone
  · rename_i hlength
    exact Nat.le_of_not_lt hlength

/-- The quotes and backslashes of a text. -/
def marks (s : QString) : Nat := s.countP Json.needsEscape

theorem unescaped_iff : Unescaped s ↔ marks s = 0 := by
  unfold Unescaped marks
  rw [countP_eq_zero]
  refine forall₂_congr fun c _ => ?_
  unfold Json.needsEscape
  rw [decide_eq_true_eq, not_or]

theorem worth_stored (s : QString) : Json.worth (stored s) = Json.worth s := by
  have hblank : Json.worth [unit ' '] = 0 := by decide
  have hmark : Json.worth [unit '?'] = 0 := by decide
  have hcons : ∀ (c : QChar) (s : QString), Json.worth (c :: s) = Json.worth [c] + Json.worth s :=
    fun c s => Json.worth_append [c] s
  have hrepaired : ∀ {s t : QString}, List.Forall₂ QString.Repaired s t → Json.worth t =
      Json.worth s := by
    intro s t h
    induction h with
    | nil => rfl
    | cons hunit _ ih =>
      rename_i u v s t _
      rw [hcons v t, hcons u s, ih]
      rcases hunit with rfl | ⟨hu, rfl⟩
      · rfl
      · rw [hmark, Json.worth_of_isSurrogate hu]
  have hwithout : ∀ s : QString, Json.worth (withoutBlanks s) = Json.worth s := by
    intro s
    induction s with
    | nil => rfl
    | cons c s ih =>
      have hfront := withoutBlanks_append [c] s
      rw [singleton_append] at hfront
      rw [hfront, Json.worth_append, hcons c s, ih]
      by_cases hc : c = unit ' '
      · subst hc
        rw [hblank]
        rfl
      · rw [withoutBlanks_eq_self (by simpa using Ne.symm hc)]
  unfold stored
  rw [hwithout, hrepaired (forall₂_repair s)]

theorem cost_itemText :
    Json.cost (itemText a) = Json.cost a.address + Json.cost a.body + Json.cost a.method := by
  have hkeys : Json.worth (ofLatin1 "address") = 0 ∧ Json.worth (ofLatin1 "body") = 0 ∧
      Json.worth (ofLatin1 "method") = 0 := by
    decide
  have hfree : ∀ c : QChar, Json.cost [c] = 0 → ∀ s, Json.cost (c :: s) = Json.cost s := by
    intro c hc s
    rw [Json.cost_cons, hc, Nat.zero_add]
  have hopen := hfree (unit '{') (by decide)
  have hclose := hfree (unit '}') (by decide)
  have hcolon := hfree (unit ':') (by decide)
  have hcomma := hfree (unit ',') (by decide)
  have hquote := hfree (unit '"') (by decide)
  have hnil : Json.cost [] = 0 := rfl
  unfold itemText
  simp only [Json.cost_append, hopen, hclose, hcolon, hcomma, hquote, hnil,
    Json.cost_sanitizeString, hkeys]
  omega

theorem cost_actionsToString (actions : List RuleAction) :
    Json.cost (Rule.actionsToString actions) ≤
      (actions.map fun a =>
        Json.cost a.address + Json.cost a.body + Json.cost a.method).sum := by
  have hfree : ∀ c : QChar, Json.cost [c] = 0 → ∀ s, Json.cost (c :: s) = Json.cost s := by
    intro c hc s
    rw [Json.cost_cons, hc, Nat.zero_add]
  have hcomma := hfree (QString.unit ',') (by decide)
  have hopen := hfree (QString.unit '[') (by decide)
  have hclose := hfree (QString.unit ']') (by decide)
  have hnil : Json.cost [] = 0 := rfl
  have htail : ∀ actions : List RuleAction,
      Json.cost (actions.flatMap fun a => QString.unit ',' :: itemText a) =
        (actions.map fun a =>
          Json.cost a.address + Json.cost a.body + Json.cost a.method).sum := by
    intro actions
    induction actions with
    | nil => rfl
    | cons a actions ih =>
      rw [flatMap_cons, Json.cost_append, hcomma, cost_itemText, ih, map_cons, sum_cons]
  cases actions with
  | nil => decide
  | cons a actions =>
    rw [actionsToString_cons, hopen, Json.cost_append, Json.cost_append, hclose, hnil,
      cost_itemText, htail, map_cons, sum_cons]
    omega

theorem worth_newAction (hqt : Numbers env.qt finite) (htoText : PlainToText env.qt)
    (hslash : QString.unit '/' ∈ (newAction env action).address)
    (hbody : (Json.parse env.qt (newAction env action).body).2 = true) :
    Json.worth (newAction env action).address + Json.cost (newAction env action).body ≤
      Json.variantWorth action := by
  have haddress : (newAction env action).address = submittedAddress env action := by
    unfold newAction RuleAction.setMethod
    simp only
    split
    · rfl
    · rfl
  rw [body_newAction hqt] at hbody ⊢
  rw [haddress] at hslash ⊢
  -- the address is a string, for it has a slash
  obtain ⟨s, hs⟩ : ∃ s, QVariant.value action.toMap "address" = .string s := by
    unfold submittedAddress at hslash
    by_contra hnot
    rw [not_exists] at hnot
    generalize QVariant.value action.toMap "address" = v at hslash hnot
    cases v with
    | string s => exact hnot s rfl
    | invalid | bool _ | int _ | double _ | list _ | map _ =>
      exact htoText _ (fun s hs => by cases hs) hslash
  have hvalue : submittedAddress env action = s := by
    unfold submittedAddress
    rw [hs]
    rfl
  -- all numbers of the body can be read, or it could not be
  have hread : Every (Parts.doubles (ReadBack env.qt))
      (.map (QVariant.value action.toMap "body").toMap) := by
    by_contra hnot
    have hrefused := Json.parse_text_refused stored (fun d => hqt.cases d) hnot
      (by intro d hd; cases hd)
    rw [hbody] at hrefused
    cases hrefused
  rw [hvalue, Json.cost_text worth_stored hread]
  cases action with
  | map entries =>
    have hlookup : entries.lookup (QString.ofLatin1 "address") = some (.string s) := by
      unfold QVariant.value at hs
      cases hentry : entries.lookup (QString.ofLatin1 "address") with
      | none =>
        replace hs : (entries.lookup (QString.ofLatin1 "address")).getD .invalid = .string s :=
          hs
        rw [hentry] at hs
        cases hs
      | some v =>
        replace hs : (entries.lookup (QString.ofLatin1 "address")).getD .invalid = .string s :=
          hs
        rw [hentry] at hs
        exact congrArg some hs
    have hsum := Json.worthAt_add_le (by decide : QString.ofLatin1 "address" ≠
      QString.ofLatin1 "body") entries
    have hfirst : Json.worthAt (QString.ofLatin1 "address") entries = Json.worth s := by
      unfold Json.worthAt
      rw [hlookup]
      rfl
    have hsecond : Json.variantWorth (.map (QVariant.value entries "body").toMap) ≤
        Json.worthAt (QString.ofLatin1 "body") entries := by
      unfold QVariant.value Json.worthAt
      cases entries.lookup (QString.ofLatin1 "body") with
      | none => exact Nat.le_refl _
      | some v =>
        cases v with
        | map body => exact Nat.le_refl _
        | invalid | bool _ | int _ | double _ | string _ | list _ => exact Nat.zero_le _
    show Json.worth s + Json.variantWorth (.map (QVariant.value entries "body").toMap) ≤
      Json.entriesWorth entries
    omega
  | invalid | bool _ | int _ | double _ | string _ | list _ => cases hs

theorem worth_items (hqt : Numbers env.qt finite) (htoText : PlainToText env.qt)
    (hreload : Rule.jsonToActions env (Rule.actionsToString actions) = actions)
    (h : ∀ a ∈ actions, QString.unit '/' ∈ a.address ∧ (Json.parse env.qt a.body).2 = true) :
    (actions.map fun a => Json.worth a.address + Json.cost a.body).sum ≤
      Json.cost (Rule.actionsToString actions) := by
  have hvalues : ∀ items : List (QVariant D),
      (∀ a ∈ items.map (newAction env), QString.unit '/' ∈ a.address ∧
        (Json.parse env.qt a.body).2 = true) →
      ((items.map (newAction env)).map fun a => Json.worth a.address + Json.cost a.body).sum ≤
        Json.valuesWorth items := by
    intro items
    induction items with
    | nil => exact fun _ => Nat.le_refl _
    | cons item items ih =>
      intro h
      rw [map_cons, forall_mem_cons] at h
      have hone := worth_newAction hqt htoText h.1.1 h.1.2
      have hrest := ih h.2
      rw [map_cons, map_cons, sum_cons, Json.valuesWorth]
      omega
  have htoList : ∀ v : QVariant D, Json.valuesWorth v.toList ≤ Json.variantWorth v := by
    intro v
    cases v with
    | list values => exact Nat.le_refl _
    | invalid | bool _ | int _ | double _ | string _ | map _ => exact Nat.zero_le _
  unfold Rule.jsonToActions at hreload
  simp only at hreload
  split at hreload
  · -- nothing was read, so there was nothing to read
    rw [← hreload]
    exact Nat.zero_le _
  · rename_i hsuccess
    rw [Bool.not_eq_false] at hsuccess
    have hworth := Json.worth_parse env.qt hsuccess
    have hlist := htoList (Json.parse env.qt (Rule.actionsToString actions)).1
    have hitems := hvalues (Json.parse env.qt (Rule.actionsToString actions)).1.toList
    rw [hreload] at hitems
    have hsum := hitems h
    omega

theorem cost_of_isMethod {method : QString} (h : RuleAction.isMethod method = true) :
    Json.cost method = 0 := by
  unfold RuleAction.isMethod at h
  rw [decide_eq_true_eq] at h
  rcases h with rfl | rfl | rfl | rfl
  · decide
  · decide
  · decide
  · decide

/-- **Actions that come back need no escape**: what is read is worth no more than the text
costs, and every mark in an address is worth one more than it costs. -/
theorem unescaped_of_jsonToActions (hqt : Numbers env.qt finite) (htoText : PlainToText env.qt)
    (hreload : Rule.jsonToActions env (Rule.actionsToString actions) = actions)
    (h : ∀ a ∈ actions, QString.unit '/' ∈ a.address ∧ (Json.parse env.qt a.body).2 = true ∧
      RuleAction.isMethod a.method = true)
    :
    ∀ a ∈ actions, Unescaped a.address := by
  have hcost := cost_actionsToString actions
  have hworth := worth_items hqt htoText hreload fun a ha => ⟨(h a ha).1, (h a ha).2.1⟩
  have hmarks : ∀ actions : List RuleAction, (∀ a ∈ actions, RuleAction.isMethod a.method = true) →
      (actions.map fun a => Json.worth a.address + Json.cost a.body).sum =
        (actions.map fun a => Json.cost a.address + Json.cost a.body + Json.cost a.method).sum +
          (actions.map fun a => marks a.address).sum := by
    intro actions
    induction actions with
    | nil => exact fun _ => rfl
    | cons a actions ih =>
      intro h
      rw [forall_mem_cons] at h
      have hmethod := cost_of_isMethod h.1
      have hrest := ih h.2
      have hone : Json.worth a.address = Json.cost a.address + marks a.address := rfl
      simp only [map_cons, sum_cons]
      omega
  have hzero : ∀ actions : List RuleAction, (actions.map fun a => marks a.address).sum = 0 → ∀ a ∈
      actions, marks a.address = 0 := by
    intro actions
    induction actions with
    | nil => simp
    | cons a actions ih =>
      intro hsum
      rw [map_cons, sum_cons] at hsum
      rw [forall_mem_cons]
      exact ⟨by omega, ih (by omega)⟩
  have htotal := hmarks actions fun a ha => (h a ha).2.2
  intro a ha
  rw [unescaped_iff]
  exact hzero actions (by omega) a ha

/-- **When the actions of a new rule survive storage**: if and only if no address needs an
escape and every body is clean. -/
theorem actions_survive_iff {env : RuleEnv D} {finite : D → Prop} (hqt : Numbers env.qt finite)
    (htoText : PlainToText env.qt) {store : RuleStore D} {apikey content : QString}
    (hok : (createRule env store apikey content).2.httpStatus = httpStatusOk)
    (hobjects : ∀ action ∈ submitted env content, isObject (submittedBody action) = true) :
    ∃ rule, (createRule env store apikey content).1.rules = store.rules ++ [rule] ∧
      (ActionsSurvive env (submitted env content) rule.actions ↔ ∀ action ∈
        submitted env content, Unescaped (submittedAddress env action) ∧
          Every (cleanBody finite) (submittedBody action)) := by
  obtain ⟨hcheck, rule, hrules, hactions⟩ := createRule_ok hok
  -- the bodies denote what was submitted if and only if they are clean
  have hbody : ∀ action ∈ submitted env content, Json.parse env.qt (newAction env action).body =
      (submittedBody action, true) ↔ Every (cleanBody finite) (submittedBody action) := by
    intro action hmem
    obtain ⟨body, hobject⟩ := isObject_iff.mp (hobjects action hmem)
    have hparsed := parsed_submittedBody env content hmem
    unfold submittedBody at hobject hparsed ⊢
    rw [body_newAction hqt, hobject]
    rw [hobject] at hparsed
    exact parse_body_iff hqt hparsed
  refine ⟨rule, hrules, ?_⟩
  unfold ActionsSurvive
  rw [hactions, forall₂_map_right_iff, forall₂_same]
  constructor
  · rintro ⟨hreload, hdenotes⟩
    have hunescaped := unescaped_of_jsonToActions hqt htoText hreload ?_
    · intro action hmem
      obtain ⟨haddress, -⟩ := newAction_eq (isMethod_of_checkActions hcheck hmem)
      refine ⟨?_, (hbody action hmem).mp (hdenotes action hmem)⟩
      rw [← haddress]
      exact hunescaped _ (mem_map_of_mem hmem)
    · intro a ha
      obtain ⟨action, hmem, rfl⟩ := mem_map.mp ha
      have hisMethod := isMethod_of_checkActions hcheck hmem
      obtain ⟨haddress, hmethod⟩ := newAction_eq hisMethod
      rw [haddress, hmethod, hdenotes action hmem]
      exact ⟨slash_of_checkActions hcheck hmem, rfl, hisMethod⟩
  · intro hclean
    refine ⟨?_, fun action hmem => (hbody action hmem).mpr (hclean action hmem).2⟩
    apply jsonToActions_of_readsAs hcheck
    intro action hmem
    obtain ⟨body, hobject⟩ := isObject_iff.mp (hobjects action hmem)
    have hparsed := parsed_submittedBody env content hmem
    have hgood := (hclean action hmem).2
    refine ⟨(hclean action hmem).1, ?_⟩
    unfold submittedBody at hobject hparsed hgood ⊢
    rw [body_newAction hqt, hobject]
    rw [hobject] at hparsed hgood
    exact readsAs_body hqt hparsed hgood

/-- `RuleEnv.utc` with negative numbers. -/
def wholeEnv : RuleEnv Int := { RuleEnv.utc with qt := Json.wholeQt }

theorem plainToText_wholeQt : PlainToText Json.wholeQt := by
  have hnumber : ∀ n : Int, QString.unit '/' ∉ QString.ofLatin1 (toString n) := by
    intro n hmem
    obtain ⟨u, us, htext, -, -, hall⟩ := (Json.isNumberText_int n).units
    rw [htext] at hmem
    exact absurd (all_eq_true.mp hall _ hmem) (by decide)
  intro v hv
  cases v with
  | bool b => cases b <;> decide
  | int n => exact hnumber n
  | double n => exact hnumber n
  | string s => exact absurd rfl (hv s)
  | invalid | list _ | map _ => exact not_mem_nil

def newRule (address body : String) : QString :=
  ["\x7b\"name\":\"n\",", "\"conditions\":[", "\x7b\"address\":", "\"/sensors/1", "/state",
    "/buttonevent\",", "\"operator\":\"dx\"\x7d],", "\"actions\":[", "\x7b\"address\":\"", address,
    "\",\"method\":", "\"PUT\",", "\"body\":", body, "\x7d]\x7d"].flatMap ofLatin1

def emptyStore : RuleStore Int := { res := Resources.oneSensor {} }

def switchOn : QString := newRule "/groups/1/action" "\x7b\"on\":true\x7d"

theorem switchOn_ok : (createRule wholeEnv emptyStore [] switchOn).2.httpStatus = httpStatusOk := by
  decide +kernel

theorem switchOn_objects :
    ((submitted wholeEnv switchOn).all fun action => isObject (submittedBody action)) = true := by
  decide +kernel

theorem actions_survive_iff_switchOn :
    ∃ rule, (createRule wholeEnv emptyStore [] switchOn).1.rules = emptyStore.rules ++ [rule] ∧
      (ActionsSurvive wholeEnv (submitted wholeEnv switchOn) rule.actions ↔ ∀ action ∈
        submitted wholeEnv switchOn, Unescaped (submittedAddress wholeEnv action) ∧
          Every (cleanBody fun _ => True) (submittedBody action)) :=
  actions_survive_iff Json.numbers_wholeQt plainToText_wholeQt switchOn_ok
    (all_eq_true.mp switchOn_objects)

def namedScene : QString := newRule "/groups/1/action" "\x7b\"a\":\"x y\"\x7d"

theorem namedScene_ok :
    (createRule wholeEnv emptyStore [] namedScene).2.httpStatus = httpStatusOk := by
  decide +kernel

theorem namedScene_submitted :
    (submitted wholeEnv namedScene).map (fun action =>
      (value (submittedBody action).toMap "a").toString wholeEnv.qt) = [ofLatin1 "x y"] := by
  decide +kernel

theorem namedScene_denoted :
    (submitted wholeEnv namedScene).map (fun action =>
      (value (Json.parse wholeEnv.qt (newAction wholeEnv action).body).1.toMap
        "a").toString wholeEnv.qt) = [ofLatin1 "xy"] := by
  decide +kernel

/-- **The blank of a submitted text is lost.** -/
theorem namedScene_lost :
    (createRule wholeEnv emptyStore [] namedScene).2.httpStatus = httpStatusOk ∧
      ∃ rule, (createRule wholeEnv emptyStore [] namedScene).1.rules = emptyStore.rules ++ [rule] ∧
        ¬ ActionsSurvive wholeEnv (submitted wholeEnv namedScene) rule.actions := by
  obtain ⟨-, rule, hrules, hactions⟩ := createRule_ok namedScene_ok
  refine ⟨namedScene_ok, rule, hrules, ?_⟩
  rintro ⟨-, hdenotes⟩
  rw [hactions, forall₂_map_right_iff, forall₂_same] at hdenotes
  have hsame := namedScene_denoted
  rw [map_congr_left (g := fun action =>
    (value (submittedBody action).toMap "a").toString wholeEnv.qt)
    (fun action hmem => by rw [hdenotes action hmem]), namedScene_submitted] at hsame
  exact absurd hsame (by decide)

/-- A quote in an address ends the text early, and nothing is read again. -/
example : Rule.jsonToActions wholeEnv (Rule.actionsToString
    ((submitted wholeEnv (newRule "/groups/1/\\\"" "\x7b\x7d")).map (newAction wholeEnv))) = [] := by
  decide +kernel

end RuleRequest
end DeconzRest
