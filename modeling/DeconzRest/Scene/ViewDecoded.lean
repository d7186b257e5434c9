import DeconzRest.Scene.ViewSets

/-!
# View scene responses that come back

What a response says of a light state is what was written of it where the color set is the last
one; a set behind it is not recognised, so no order is safe for a light with a color
(`view_scene_comes_back_iff`).  A new light state has the transition time in seconds, also from the
response with tenths, and a response for a group that does not exist uses it.
-/

namespace DeconzRest
namespace Scene

open List Option

/-! ## Any order -/

def FieldSet.effect (e : FieldSet) (v : Viewed) : Viewed :=
  if e.cluster = 0x0006 then { v with hasOnOff := true, onOff := e.data.headD 0 }
  else if e.cluster = 0x0008 then { v with hasBri := true, bri := e.data.headD 0 }
  else v

/-- A set without color: one of the light state, or one of another cluster -/
def Plain (l : Light) (e : FieldSet) : Prop := e = onOffSet l ∨ e = levelSet l ∨ e.Foreign

theorem effect_foreign {e : FieldSet} (h : e.Foreign) (v : Viewed) : e.effect v = v := by
  unfold FieldSet.effect
  rw [if_neg h.1, if_neg h.2.1]

variable {l : Light}

theorem reads_plain {e : FieldSet} (h : Plain l e) : e.Reads e.effect := by
  rcases h with rfl | rfl | h
  · exact reads_onOff l
  · exact reads_level l
  · intro rest v
    rw [effect_foreign h]
    exact reads_foreign h rest v

theorem FieldSet.bytes_ne_nil (e : FieldSet) (rest : List UInt8) : e.bytes ++ rest ≠ [] := by
  unfold FieldSet.bytes
  exact fun h => nomatch h

theorem viewSets_plain {sets : List FieldSet} (h : ∀ e ∈ sets, Plain l e) (rest : List UInt8)
    (v : Viewed) :
    viewSets ⟨sets.flatMap FieldSet.bytes ++ rest, false⟩ v =
      viewSets ⟨rest, false⟩ (sets.foldl (fun v e => e.effect v) v) := by
  induction sets generalizing v with
  | nil => rfl
  | cons e sets ih =>
    obtain ⟨he, hsets⟩ := forall_mem_cons.mp h
    rw [flatMap_cons, append_assoc, viewSets_cons (e.bytes_ne_nil _), reads_plain he, ih hsets,
      foldl_cons]

theorem foldl_effect_perm {sets sets' : List FieldSet} (hperm : sets.Perm sets')
    (h : ∀ e ∈ sets, Plain l e) (v : Viewed) :
    sets.foldl (fun v e => e.effect v) v = sets'.foldl (fun v e => e.effect v) v := by
  refine hperm.foldl_eq' (fun e he e' he' v => ?_) v
  rcases h e he with rfl | rfl | hforeign
  · rcases h e' he' with rfl | rfl | hforeign'
    · rfl
    · rfl
    · rw [effect_foreign hforeign', effect_foreign hforeign']
  · rcases h e' he' with rfl | rfl | hforeign'
    · rfl
    · rfl
    · rw [effect_foreign hforeign', effect_foreign hforeign']
  · rw [effect_foreign hforeign, effect_foreign hforeign]

theorem foldl_effect_foreign {others : List FieldSet} (h : ∀ e ∈ others, e.Foreign) (v : Viewed) :
    others.foldl (fun v e => e.effect v) v = v := by
  induction others with
  | nil => rfl
  | cons e others ih =>
    obtain ⟨he, hothers⟩ := forall_mem_cons.mp h
    rw [foldl_cons, effect_foreign he, ih hothers]

def Viewed.plain (l : Light) : Viewed where
  hasOnOff := true
  onOff := if l.on then 1 else 0
  hasBri := true
  bri := l.bri

theorem viewSets_perm {sets others : List FieldSet} (hforeign : ∀ e ∈ others, e.Foreign)
    (hperm : sets.Perm (onOffSet l :: levelSet l :: others)) (rest : List UInt8) :
    viewSets ⟨sets.flatMap FieldSet.bytes ++ rest, false⟩ {} =
      viewSets ⟨rest, false⟩ (Viewed.plain l) := by
  have hplain : ∀ e ∈ sets, Plain l e := by
    intro e he
    rcases mem_cons.mp (hperm.mem_iff.mp he) with rfl | he
    · exact .inl rfl
    · rcases mem_cons.mp he with rfl | he
      · exact .inr (.inl rfl)
      · exact .inr (.inr (hforeign e he))
  rw [viewSets_plain hplain, foldl_effect_perm hperm hplain, foldl_cons, foldl_cons,
    foldl_effect_foreign hforeign]
  rfl

variable {c : Color}

theorem viewSets_color (l : Light) (hx : c.x ≠ 0) (hy : c.y ≠ 0) (v : Viewed) :
    viewSets ⟨(colorSet l c).bytes, false⟩ v = v.withColor c := by
  have hread := readSet_color l hx hy [] v
  rw [append_nil] at hread
  have hne := (colorSet l c).bytes_ne_nil []
  rw [append_nil] at hne
  rw [viewSets_cons hne, hread, viewSets_cons (cons_ne_nil _ _)]
  rfl

theorem viewSets_color_onOff (l : Light) (hx : c.x ≠ 0) (hy : c.y ≠ 0) (v : Viewed) :
    viewSets ⟨(colorSet l c).bytes ++ ((onOffSet l).bytes ++ (levelSet l).bytes), false⟩ v =
      v.withColor c := by
  rw [viewSets_cons ((colorSet l c).bytes_ne_nil _), readSet_color l hx hy]
  simp only
  have honOff : (onOffSet l).bytes = [6, 0, 1, if l.on then 1 else 0] := by
    have hcluster : writeLE 2 (0x0006 : UInt16).toNat = [6, 0] := by decide
    unfold FieldSet.bytes onOffSet
    rw [hcluster]
    rfl
  have hlevel : (levelSet l).bytes = [8, 0, 1, l.bri] := by
    have hcluster : writeLE 2 (0x0008 : UInt16).toNat = [8, 0] := by decide
    unfold FieldSet.bytes levelSet
    rw [hcluster]
    rfl
  rw [honOff, hlevel]
  cases l.on <;> rfl

/-! ## Responses -/

/-- A successful response that carries the sets of a light state, in some order and mixed with sets
of other clusters -/
structure Response (node : Node) (l : Light) where
  groupId : UInt16
  sceneId : UInt8
  name : List UInt8 := []
  shortName : name.length < 256
  others : List FieldSet := []
  foreign : ∀ e ∈ others, e.Foreign
  sets : List FieldSet
  perm : sets.Perm (builtSets node l ++ others)

variable {node : Node} {l : Light}

/-- The transition time is in the unit of the command that was sent. -/
def Response.payload (r : Response node l) : List UInt8 :=
  0x00 :: (writeLE 2 r.groupId.toNat ++ r.sceneId :: (writeLE 2 (addCommand l).2.toNat ++
    .ofNat r.name.length :: (r.name ++ r.sets.flatMap FieldSet.bytes)))

def responseOf (payload : List UInt8) : ViewResponse :=
  readResponse (DataStream.read8 ⟨payload, false⟩).2

theorem skipName_append (name rest : List UInt8) :
    skipName name.length ⟨name ++ rest, false⟩ = ⟨rest, false⟩ := by
  induction name with
  | nil => rfl
  | cons c name ih =>
    rw [length_cons, cons_append, skipName, if_neg (cons_ne_nil _ _), DataStream.read8_cons, ih]

theorem responseOf_payload (r : Response node l) : responseOf r.payload =
    ⟨r.groupId, r.sceneId, (addCommand l).2, viewSets ⟨r.sets.flatMap FieldSet.bytes, false⟩ {}⟩ := by
  have hname : (UInt8.ofNat r.name.length).toNat = r.name.length := by
    rw [UInt8.toNat_ofNat']
    exact Nat.mod_eq_of_lt r.shortName
  unfold responseOf Response.payload readResponse
  simp only [DataStream.read8_cons, DataStream.read16_writeLE]
  rw [hname, skipName_append]

def carried (node : Node) (l : Light) : Viewed :=
  match sentColor node l with
  | none => .plain l
  | some c => (Viewed.plain l).withColor c

def Response.ColorLast (r : Response node l) : Prop :=
  ∀ c, sentColor node l = some c → r.sets.getLast? = some (colorSet l c)

def NonZero (node : Node) (l : Light) : Prop :=
  ∀ c, sentColor node l = some c → c.x ≠ 0 ∧ c.y ≠ 0

variable {r : Response node l}

theorem viewed_of_colorLast (hxy : NonZero node l) (hlast : r.ColorLast) :
    (responseOf r.payload).viewed = carried node l := by
  have hperm := r.perm
  rw [responseOf_payload]
  show viewSets ⟨r.sets.flatMap FieldSet.bytes, false⟩ {} = _
  unfold carried
  unfold builtSets at hperm
  cases h : sentColor node l with
  | none =>
    rw [h] at hperm
    have hread := viewSets_perm r.foreign hperm []
    rwa [append_nil] at hread
  | some c =>
    rw [h] at hperm
    obtain ⟨front, hsets⟩ := List.getLast?_eq_some_iff.mp (hlast c h)
    obtain ⟨hx, hy⟩ := hxy c h
    have hfront : front.Perm (onOffSet l :: levelSet l :: r.others) := by
      rw [hsets] at hperm
      refine List.Perm.cons_inv (a := colorSet l c) ?_
      refine (perm_append_singleton _ _).symm.trans (hperm.trans ?_)
      exact @perm_middle _ _ [onOffSet l, levelSet l] r.others
    rw [hsets, flatMap_append, flatMap_singleton, viewSets_perm r.foreign hfront,
      viewSets_color l hx hy]

def colorInFront (c : Color) (h : sentColor node l = some c) (groupId : UInt16) (sceneId : UInt8) :
    Response node l where
  groupId
  sceneId
  name := []
  shortName := by decide
  foreign := forall_mem_nil _
  sets := [colorSet l c, onOffSet l, levelSet l]
  perm := by
    unfold builtSets
    rw [h, append_nil]
    exact @perm_append_comm _ [colorSet l c] [onOffSet l, levelSet l]

theorem viewed_colorInFront (hxy : NonZero node l) (h : sentColor node l = some c)
    (groupId : UInt16) (sceneId : UInt8) :
    (responseOf (colorInFront c h groupId sceneId).payload).viewed ≠ carried node l := by
  obtain ⟨hx, hy⟩ := hxy c h
  have hread := viewSets_color_onOff l hx hy {}
  rw [responseOf_payload]
  show viewSets ⟨[colorSet l c, onOffSet l, levelSet l].flatMap FieldSet.bytes, false⟩ {} ≠ _
  rw [flatMap_cons, flatMap_cons, flatMap_singleton, hread]
  unfold carried
  rw [h]
  exact fun heq => Bool.false_ne_true (congrArg Viewed.hasOnOff heq)

/-! ## New light states -/

def sentTime (l : Light) : UInt16 :=
  if 10 ≤ l.transitionTime then l.transitionTime / 10 * 10 else l.transitionTime

/-- The light state has the values that were written. -/
structure IsNew (node : Node) (l ls : Light) : Prop where
  lid : ls.lid = node.id
  on : ls.on = l.on
  bri : ls.bri = l.bri
  color : ∀ c, sentColor node l = some c → ls.x = c.x ∧ ls.y = c.y ∧ ls.enhancedHue =
    c.enhancedHue ∧ ls.saturation = c.saturation
  transitionTime : ls.transitionTime = sentTime l

/-- **A response comes back**: the values are read as they were written, and where the scene is
there without the light it has a new light state with these values. -/
structure Response.ComesBack (r : Response node l) : Prop where
  viewed : (responseOf r.payload).viewed = carried node l
  new : ∀ gwGroup0 colorTemperature groups group scene, getGroupForId gwGroup0 groups r.groupId =
    some group → group.getScene r.sceneId = some scene →
    (∀ ls ∈ scene.lights, ls.lid ≠ node.id) →
    ∃ groups' group' scene' ls,
      viewSceneResponse gwGroup0 colorTemperature (some node) r.payload groups = some groups' ∧
      getGroupForId gwGroup0 groups' r.groupId = some group' ∧
      group'.getScene r.sceneId = some scene' ∧ scene'.lights = scene.lights ++ [ls] ∧
      IsNew node l ls

/-- The transition times that the unit does not matter for, or that are sent in seconds -/
def KeepsTime (l : Light) : Prop := l.transitionTime = 0 ∨ 10 ≤ l.transitionTime

theorem sentTime_iff (l : Light) : (addCommand l).2 * 10 = sentTime l ↔ KeepsTime l := by
  unfold addCommand sentTime KeepsTime
  by_cases h : 10 ≤ l.transitionTime
  · rw [if_pos h, if_pos h]
    exact iff_of_true rfl (.inr h)
  · rw [if_neg h, if_neg h, or_iff_left h]
    have hlt : l.transitionTime.toNat < 10 := by
      rw [UInt16.le_iff_toNat_le] at h
      exact Nat.lt_of_not_le h
    have hten : (l.transitionTime * 10).toNat = l.transitionTime.toNat * 10 := by
      rw [UInt16.toNat_mul]
      exact Nat.mod_eq_of_lt (by show _ * 10 < 2 ^ 16; omega)
    rw [← UInt16.toNat_inj, ← UInt16.toNat_inj, hten]
    show _ ↔ _ = 0
    omega

theorem find?_modify_findIdx {α : Type*} {p : α → Bool} {f : α → α} (hp : ∀ a, p (f a) = p a)
    (l : List α) : (l.modify (l.findIdx p) f).find? p = (l.find? p).map f := by
  induction l with
  | nil => rfl
  | cons a l ih =>
    cases h : p a with
    | true =>
      rw [findIdx_cons, h, cond_true, modify_zero_cons, List.find?_cons_of_pos h,
        List.find?_cons_of_pos ((hp a).trans h)]
      rfl
    | false =>
      have hneg : ¬ p a = true := by rw [h]; exact Bool.false_ne_true
      rw [findIdx_cons, h, cond_false, modify_succ_cons, List.find?_cons_of_neg hneg,
        List.find?_cons_of_neg hneg, ih]

theorem getGroupForId_changeGroup (gwGroup0 : UInt16) (groups : List Group) (id : UInt16)
    {change : Group → Group} (h : ∀ group, (change group).address = group.address) :
    getGroupForId gwGroup0 (changeGroup gwGroup0 groups id change) id =
      (getGroupForId gwGroup0 groups id).map change :=
  find?_modify_findIdx (fun group => by rw [h]) groups

theorem getScene_changeScene (sceneId : UInt8) {change : Entry → Entry}
    (h : ∀ scene, (change scene).id = scene.id ∧ (change scene).deleted = scene.deleted)
    (group : Group) :
    (group.changeScene sceneId change).getScene sceneId = (group.getScene sceneId).map change :=
  find?_modify_findIdx (fun scene => by rw [(h scene).1, (h scene).2]) group.scenes

theorem applyView_keys (r : ViewResponse) (colorTemperature : UInt16) (scene : Entry) :
    (applyView node r colorTemperature scene).id = scene.id ∧
      (applyView node r colorTemperature scene).deleted = scene.deleted := by
  unfold applyView
  simp only
  split
  · exact ⟨rfl, rfl⟩
  · exact ⟨rfl, rfl⟩

theorem applyView_new (r : ViewResponse) (colorTemperature : UInt16) {scene : Entry}
    (h : ∀ ls ∈ scene.lights, ls.lid ≠ node.id) :
    applyView node r colorTemperature scene =
      { scene with lights := scene.lights ++ [newLightState node r colorTemperature] } := by
  have hnone : ¬ (scene.lights.findIdx fun ls => ls.lid = node.id) < scene.lights.length := by
    rw [findIdx_lt_length]
    rintro ⟨ls, hls, heq⟩
    exact h ls hls (of_decide_eq_true heq)
  unfold applyView
  simp only
  rw [if_neg hnone]

variable {groups : List Group}

theorem viewSceneResponse_payload {gwGroup0 : UInt16} (colorTemperature : UInt16) {group : Group}
    (h : getGroupForId gwGroup0 groups r.groupId = some group) :
    viewSceneResponse gwGroup0 colorTemperature (some node) r.payload groups =
      some (changeGroup gwGroup0 groups r.groupId
        (Group.changeScene r.sceneId (applyView node (responseOf r.payload) colorTemperature))) := by
  have hlength : ¬ r.payload.length < 4 := by
    unfold Response.payload
    simp only [length_cons, List.length_append, length_writeLE]
    omega
  have hread := responseOf_payload r
  have hgroup : (responseOf r.payload).groupId = r.groupId := by rw [hread]
  have hscene : (responseOf r.payload).sceneId = r.sceneId := by rw [hread]
  refine (viewSceneResponse_cons colorTemperature node hlength).trans ?_
  rw [if_pos rfl]
  show (getGroupForId gwGroup0 groups (responseOf r.payload).groupId).map _ = _
  rw [hgroup, h, map_some]
  show some (changeGroup gwGroup0 groups (responseOf r.payload).groupId
    (Group.changeScene (responseOf r.payload).sceneId
      (applyView node (responseOf r.payload) colorTemperature))) = _
  rw [hgroup, hscene]

theorem isNew_iff (colorTemperature : UInt16) (h : (responseOf r.payload).viewed = carried node l) :
    IsNew node l (newLightState node (responseOf r.payload) colorTemperature) ↔ KeepsTime l := by
  have htime : (newLightState node (responseOf r.payload) colorTemperature).transitionTime =
      (addCommand l).2 * 10 := by
    rw [responseOf_payload]
    unfold newLightState
    simp only
    split
    · split <;> rfl
    · rfl
  refine ⟨fun hnew => (sentTime_iff l).mp (htime.symm.trans hnew.transitionTime), fun hkeeps => ?_⟩
  have hon : decide ((if l.on then (1 : UInt8) else 0) ≠ 0) = l.on := by
    cases l.on <;> rfl
  have hvalues : ∀ v : Viewed, v = carried node l → ∀ ls : Light, (v.applyTo ls).lid = ls.lid ∧
      (v.applyTo ls).on = l.on ∧ (v.applyTo ls).bri = l.bri ∧
      ∀ c, sentColor node l = some c → (v.applyTo ls).x = c.x ∧ (v.applyTo ls).y = c.y ∧
        (v.applyTo ls).enhancedHue = c.enhancedHue ∧ (v.applyTo ls).saturation = c.saturation := by
    rintro v rfl ls
    unfold carried
    cases hc : sentColor node l with
    | none => exact ⟨rfl, hon, rfl, fun c h => nomatch h⟩
    | some c =>
      refine ⟨rfl, hon, rfl, ?_⟩
      rintro c' heq
      obtain rfl := some.inj heq
      exact ⟨rfl, rfl, rfl, rfl⟩
  obtain ⟨hlid, honOff, hbri, hcolor⟩ := hvalues _ h
    { lid := node.id, transitionTime := (responseOf r.payload).transitionTime * 10,
      colorTemperature }
  -- the color mode and the color temperature are not among the values
  have hsame : ∀ ls : Light, ls.lid = node.id ∧ ls.on = l.on ∧ ls.bri = l.bri ∧
      (∀ c, sentColor node l = some c → ls.x = c.x ∧ ls.y = c.y ∧ ls.enhancedHue = c.enhancedHue ∧
        ls.saturation = c.saturation) →
      ls.transitionTime = sentTime l → IsNew node l ls :=
    fun ls ⟨hlid, hon, hbri, hcolor⟩ htime => ⟨hlid, hon, hbri, hcolor, htime⟩
  refine hsame _ ?_ (htime.trans ((sentTime_iff l).mpr hkeeps))
  unfold newLightState
  simp only
  split
  · split
    · exact ⟨hlid, honOff, hbri, hcolor⟩
    · exact ⟨hlid, honOff, hbri, hcolor⟩
  · exact ⟨hlid, honOff, hbri, hcolor⟩

theorem comesBack_iff (h : (responseOf r.payload).viewed = carried node l) :
    r.ComesBack ↔ KeepsTime l := by
  constructor
  · intro hback
    let address := if r.groupId ≠ 0 then r.groupId else 1
    obtain ⟨groups', group', scene', ls, hview, hgroup', hscene', hlights, hnew⟩ :=
      hback.new 1 0 [⟨address, [{ id := r.sceneId }]⟩] ⟨address, [{ id := r.sceneId }]⟩
        { id := r.sceneId }
        (List.find?_cons_of_pos (decide_eq_true rfl))
        (List.find?_cons_of_pos (decide_eq_true ⟨rfl, rfl⟩)) (forall_mem_nil _)
    have hgroup : getGroupForId 1 [⟨address, [{ id := r.sceneId }]⟩] r.groupId =
        some ⟨address, [{ id := r.sceneId }]⟩ := List.find?_cons_of_pos (decide_eq_true rfl)
    have hscene : Group.getScene ⟨address, [{ id := r.sceneId }]⟩ r.sceneId =
        some { id := r.sceneId } := List.find?_cons_of_pos (decide_eq_true ⟨rfl, rfl⟩)
    rw [viewSceneResponse_payload 0 hgroup] at hview
    obtain rfl := some.inj hview
    rw [getGroupForId_changeGroup _ _ _ fun _ => by rfl, hgroup] at hgroup'
    obtain rfl := some.inj hgroup'
    rw [getScene_changeScene _ (applyView_keys _ _), hscene] at hscene'
    obtain rfl := some.inj hscene'
    rw [applyView_new _ _ (forall_mem_nil _)] at hlights
    obtain rfl := List.cons.inj hlights |>.1
    exact (isNew_iff 0 h).mp hnew
  · intro hkeeps
    refine ⟨h, ?_⟩
    intro gwGroup0 colorTemperature groups group scene hgroup hscene hlights
    refine ⟨_, group.changeScene r.sceneId
      (applyView node (responseOf r.payload) colorTemperature),
      applyView node (responseOf r.payload) colorTemperature scene, _,
      viewSceneResponse_payload colorTemperature hgroup, ?_, ?_, ?_,
      (isNew_iff colorTemperature h).mpr hkeeps⟩
    · rw [getGroupForId_changeGroup _ _ _ fun _ => by rfl, hgroup]
      rfl
    · rw [getScene_changeScene _ (applyView_keys _ _), hscene]
      rfl
    · rw [applyView_new _ _ hlights]

def namedGroup (payload : List UInt8) : Option UInt16 :=
  let (status, s) := DataStream.read8 ⟨payload, false⟩
  if 4 ≤ payload.length ∧ (status = 0x00 ∨ status = 0x8B) then some s.read16.1 else none

theorem looked_up {node : Node} {gwGroup0 id : UInt16} :
    getGroupForId gwGroup0 groups id = none ↔ (some node).isSome ∧ ∃ named, some id = some named ∧
      getGroupForId gwGroup0 groups named = none :=
  ⟨fun h => ⟨rfl, id, rfl, h⟩, fun ⟨_, _, hid, h⟩ => some.inj hid ▸ h⟩

theorem viewSceneResponse_eq_none_iff {gwGroup0 colorTemperature : UInt16} {light : Option Node}
    {payload : List UInt8} :
    viewSceneResponse gwGroup0 colorTemperature light payload groups = none ↔ light.isSome ∧
      ∃ id, namedGroup payload = some id ∧ getGroupForId gwGroup0 groups id = none := by
  by_cases hlength : payload.length < 4
  · have hnamed : namedGroup payload = none := if_neg fun h => Nat.not_lt.mpr h.1 hlength
    have hview : viewSceneResponse gwGroup0 colorTemperature light payload groups = some groups :=
      if_pos hlength
    rw [hview, hnamed]
    exact iff_of_false (some_ne_none _) (by rintro ⟨-, id, hid, -⟩; cases hid)
  have hfour : 4 ≤ payload.length := Nat.le_of_not_lt hlength
  cases light with
  | none =>
    have hview : viewSceneResponse gwGroup0 colorTemperature none payload groups = some groups :=
      if_neg hlength
    rw [hview]
    exact iff_of_false (some_ne_none _) (by rintro ⟨hsome, -⟩; cases hsome)
  | some node =>
    cases payload with
    | nil => exact absurd (Nat.zero_lt_succ 3) hlength
    | cons status rest =>
      rw [viewSceneResponse_cons colorTemperature node hlength]
      unfold namedGroup
      rw [DataStream.read8_cons]
      simp only
      by_cases hok : status = 0x00
      · rw [if_pos hok, if_pos ⟨hfour, .inl hok⟩, map_eq_none_iff]
        exact looked_up
      · rw [if_neg hok]
        by_cases hmissing : status = 0x8B
        · rw [if_pos hmissing, if_pos ⟨hfour, .inr hmissing⟩, map_eq_none_iff]
          exact looked_up
        · rw [if_neg hmissing, if_neg fun h => h.2.elim hok hmissing]
          exact iff_of_false (some_ne_none _) (by rintro ⟨-, id, hid, -⟩; cases hid)

def inOrder (node : Node) (l : Light) (groupId : UInt16) (sceneId : UInt8) : Response node l where
  groupId
  sceneId
  name := []
  shortName := by decide
  foreign := forall_mem_nil _
  sets := builtSets node l
  perm := by rw [append_nil]

/-- **Which responses come back.**  A response with the color set behind all others does unless its
transition time is 1 to 9 tenths; all responses of a light do, in whatever order the sets are, if
the light has no color set and the transition time is none of these.  A group that does not exist
is used exactly if a light of the gateway names one. -/
theorem view_scene_comes_back_iff (hxy : NonZero node l) :
    (∀ r : Response node l, r.ColorLast → (r.ComesBack ↔ KeepsTime l)) ∧
    ((∀ r : Response node l, r.ComesBack) ↔ sentColor node l = none ∧ KeepsTime l) ∧
    ∀ gwGroup0 colorTemperature light payload groups,
      viewSceneResponse gwGroup0 colorTemperature light payload groups ≠ none ↔
        (light.isSome → ∀ id, namedGroup payload = some id → getGroupForId gwGroup0 groups id ≠
          none) := by
  have hlast : ∀ r : Response node l, r.ColorLast → (r.ComesBack ↔ KeepsTime l) :=
    fun r h => comesBack_iff (viewed_of_colorLast hxy h)
  refine ⟨hlast, ⟨fun hall => ?_, fun ⟨hnone, hkeeps⟩ r => ?_⟩, ?_⟩
  · have hnone : sentColor node l = none := by
      cases h : sentColor node l with
      | none => rfl
      | some c => exact absurd (hall (colorInFront c h 1 1)).viewed (viewed_colorInFront hxy h 1 1)
    refine ⟨hnone, (hlast (inOrder node l 1 1) fun c h => ?_).mp (hall _)⟩
    rw [hnone] at h
    cases h
  · refine (hlast r fun c h => ?_).mpr hkeeps
    rw [hnone] at h
    cases h
  · intro gwGroup0 colorTemperature light payload groups
    rw [ne_eq, viewSceneResponse_eq_none_iff]
    constructor
    · intro h hlight id hid hgroup
      exact h ⟨hlight, id, hid, hgroup⟩
    · rintro h ⟨hlight, id, hid, hgroup⟩
      exact h hlight id hid hgroup

def hueNode : Node := { id := QString.ofLatin1 "3" }

def hueLight : Light where
  lid := QString.ofLatin1 "3"
  on := true
  bri := 127
  x := 22500
  y := 30000
  enhancedHue := 8000
  saturation := 254
  colorTemperature := 0
  colorMode := QString.ofLatin1 "xy"
  transitionTime := 47

theorem hueLight_color : sentColor hueNode hueLight = some ⟨22500, 30000, 8000, 254⟩ := by decide

theorem nonZero_hueLight : NonZero hueNode hueLight := by
  intro c h
  rw [hueLight_color] at h
  obtain rfl := some.inj h
  exact ⟨by decide, by decide⟩

/-- The sets come back in the order in which they are written. -/
theorem view_scene_comes_back_hueLight : (inOrder hueNode hueLight 1 1).ComesBack := by
  refine ((view_scene_comes_back_iff nonZero_hueLight).1 _ fun c h => ?_).mpr (.inr (by decide))
  rw [hueLight_color] at h
  obtain rfl := some.inj h
  rfl

def fastLight : Light := { hueLight with transitionTime := 5 }

/-- The color set in front, half a second, and a group that the gateway does not have -/
theorem view_scene_lost :
    ¬ (colorInFront _ hueLight_color 1 1).ComesBack ∧ ¬ (inOrder hueNode fastLight 1 1).ComesBack ∧
      viewSceneResponse 0xFFF0 0 (some hueNode) [0x00, 7, 0, 1] [] = none := by
  refine ⟨fun h => viewed_colorInFront nonZero_hueLight hueLight_color 1 1 h.viewed, fun h => ?_, rfl⟩
  exact absurd ((comesBack_iff h.viewed).mp h) (by unfold KeepsTime; decide)

end Scene
end DeconzRest
