import DeconzRest.Binding.Machine

/-!
# The indices of the binding level

DDF code clears and adds bindings at any time, also while a request for a binding is on its
way.  `Valid` holds nevertheless: clearing the bindings sets `DEV_BindingHandler`, and every
other change of `bindingIter` is followed by a state that checks it.
-/

namespace DeconzRest
namespace BindingContext

/-- The states whose handlers look at the binding of `bindingIter` without a check. -/
def Indexed : BindingState → Bool
  | .create | .readReport | .readNextReport | .configureNextReport | .configureReporting => true
  | .binding | .tableRead | .tableVerify | .remove | .idle => false

/-- The vectors belong together and no index was outside. -/
structure Sound (c : BindingContext) : Prop where
  lengths : c.bindings.length = c.bindingTrackers.length
  fault : c.fault = false

structure Valid (c : BindingContext) : Prop extends Sound c where
  index : ∀ s, c.state = some s → Indexed s = true → c.bindingIter < c.bindings.length

theorem Sound.of_lengths {c c' : BindingContext} (h : Sound c)
    (hbindings : c'.bindings.length = c.bindings.length)
    (htrackers : c'.bindingTrackers.length = c.bindingTrackers.length)
    (hfault : c'.fault = c.fault) : Sound c' where
  lengths := by rw [hbindings, htrackers, h.lengths]
  fault := by rw [hfault, h.fault]

variable {c : BindingContext}

theorem valid_setState (h : Sound c) {s : BindingState}
    (hindex : Indexed s = true → c.bindingIter < c.bindings.length) : Valid (c.setState s) := by
  have hsame := same_setState c s
  refine ⟨h.of_lengths (by rw [hsame.bindings]) (by rw [hsame.bindingTrackers]) hsame.fault, ?_⟩
  intro s' hs' hindexed
  rw [setState_state, Option.some.injEq] at hs'
  rw [hsame.bindingIter, hsame.bindings]
  exact hindex (by rw [hs']; exact hindexed)

theorem valid_setState_free (h : Sound c) {s : BindingState} (hs : Indexed s = false) :
    Valid (c.setState s) := by
  apply valid_setState h
  rw [hs]
  exact fun hindexed => absurd hindexed (by decide)

theorem Valid.of_same {c c' : BindingContext} (h : Valid c)
    (hbindings : c'.bindings.length = c.bindings.length)
    (htrackers : c'.bindingTrackers.length = c.bindingTrackers.length)
    (hiter : c'.bindingIter = c.bindingIter) (hstate : c'.state = c.state)
    (hfault : c'.fault = c.fault) : Valid c' where
  toSound := h.toSound.of_lengths hbindings htrackers hfault
  index := by
    rw [hbindings, hiter, hstate]
    exact h.index

theorem valid_awaitConfirm (h : Valid c) (isEnqueued : Bool) :
    Valid (c.awaitConfirm isEnqueued) := by
  unfold awaitConfirm
  split
  · exact ⟨⟨h.lengths, h.fault⟩, h.index⟩
  · exact valid_setState_free h.toSound rfl

theorem valid_apsConfirm (h : Valid c) (apsReqId id status : UInt8) :
    Valid (c.apsConfirm apsReqId id status) := by
  unfold apsConfirm
  split
  · split
    · exact ⟨⟨h.lengths, h.fault⟩, h.index⟩
    · exact valid_setState_free h.toSound rfl
  · exact h

theorem valid_processNextBinding (h : Sound c) : Valid c.processNextBinding := by
  unfold processNextBinding
  apply valid_setState_free
  · exact ⟨h.lengths, h.fault⟩
  · rfl

theorem getElem?_of_lt (h : Sound c) (hindex : c.bindingIter < c.bindings.length) :
    c.bindings[c.bindingIter]? = some c.bindings[c.bindingIter] ∧
      ∃ t, c.bindingTrackers[c.bindingIter]? = some t :=
  ⟨List.getElem?_eq_getElem hindex, _, List.getElem?_eq_getElem (h.lengths ▸ hindex)⟩

/-! ## The handlers -/

theorem valid_bindingHandler (h : Valid c) (e : BindingEvent) (w : World) :
    Valid (c.bindingHandler e w) := by
  have hstart : Sound { c with bindingIter := 0 } := ⟨h.lengths, h.fault⟩
  have hpoll : Valid (c.bindingHandler .poll w) := by
    unfold bindingHandler
    simp only
    split
    · exact h
    · split
      · exact h
      · split
        · exact valid_setState_free hstart rfl
        · exact valid_setState_free hstart rfl
  cases e with
  | poll | bindingTick => exact hpoll
  | bindingTable status =>
    unfold bindingHandler
    simp only
    split
    · exact ⟨⟨h.lengths, h.fault⟩, h.index⟩
    · split
      · exact ⟨⟨h.lengths, h.fault⟩, h.index⟩
      · exact h
  | apsConfirm | zdpMgmtBindResponse | zdpResponse | zclReadReportConfigResponse | zclResponse =>
    exact h

theorem valid_mgmtBindResponse (h : Valid c) (data : List UInt8) :
    Valid (c.mgmtBindResponse data) := by
  unfold mgmtBindResponse
  split
  · exact h
  · split
    · exact h
    · split
      · simp only
        split
        · exact ⟨⟨h.lengths, h.fault⟩, h.index⟩
        · apply valid_setState_free
          · exact ⟨h.lengths, h.fault⟩
          · rfl
      · split
        · apply valid_setState_free
          · exact ⟨h.lengths, h.fault⟩
          · rfl
        · exact valid_setState_free h.toSound rfl

theorem valid_tableReadHandler (h : Valid c) (e : BindingEvent) (w : World) :
    Valid (c.tableReadHandler e w) := by
  cases e with
  | bindingTick =>
    unfold tableReadHandler
    apply valid_awaitConfirm
    exact ⟨⟨h.lengths, h.fault⟩, h.index⟩
  | apsConfirm id status => exact valid_apsConfirm h _ _ _
  | zdpMgmtBindResponse data => exact valid_mgmtBindResponse h data
  | poll | bindingTable | zdpResponse | zclReadReportConfigResponse | zclResponse => exact h

theorem valid_verifyBinding (h : Valid c) (hindex : c.bindingIter < c.bindings.length)
    (hfree : c.state = some .tableVerify) (b : DdfBinding) (tBound : Int) (w : World) :
    Valid (c.verifyBinding b tBound w) := by
  unfold verifyBinding
  split
  · exact valid_setState h.toSound fun _ => hindex
  · rename_i bnd confirmed _
    have hset : Sound { c with
        bindingTrackers := c.bindingTrackers.set c.bindingIter (boundAt tBound confirmed) } :=
      h.toSound.of_lengths rfl List.length_set rfl
    simp only
    split
    · exact valid_setState hset fun _ => hindex
    · cases bnd.dstAddressMode with
      | ext =>
        simp only
        apply valid_setState
        · exact ⟨hset.lengths, hset.fault⟩
        · exact fun _ => hindex
      | group =>
        refine ⟨⟨hset.lengths, hset.fault⟩, ?_⟩
        intro s hs hindexed
        have hverify : some BindingState.tableVerify = some s := hfree.symm.trans hs
        cases hverify
        cases hindexed
      | none => exact h.of_same rfl List.length_set rfl rfl rfl

theorem valid_tableVerifyHandler (h : Valid c) (hstate : c.state = some .tableVerify)
    (e : BindingEvent) (w : World) :
    Valid (c.tableVerifyHandler e w) := by
  cases e with
  | bindingTick =>
    unfold tableVerifyHandler
    simp only
    split
    · apply valid_setState_free
      · exact ⟨h.lengths, h.fault⟩
      · rfl
    · rename_i hlt
      have hindex : c.bindingIter < c.bindings.length := Nat.lt_of_not_le hlt
      obtain ⟨hb, t, ht⟩ := getElem?_of_lt h.toSound hindex
      rw [hb, ht]
      simp only
      split
      · exact valid_setState_free h.toSound rfl
      · rename_i b _
        refine ⟨h.toSound.of_lengths List.length_set rfl rfl, ?_⟩
        intro s hs hindexed
        have hverify : some BindingState.tableVerify = some s := hstate.symm.trans hs
        cases hverify
        cases hindexed
      · rename_i b _
        have hset : Valid { c with bindings := c.bindings.set c.bindingIter b } :=
          h.of_same List.length_set rfl rfl rfl rfl
        have hlength : c.bindingIter < (c.bindings.set c.bindingIter b).length := by
          rwa [List.length_set]
        exact valid_verifyBinding hset hlength hstate b t w
  | poll | bindingTable | apsConfirm | zdpMgmtBindResponse | zdpResponse
  | zclReadReportConfigResponse | zclResponse => exact h

theorem valid_createEnter (h : Valid c) (hstate : c.state = some .create) (w : World) :
    Valid (c.createEnter w) := by
  obtain ⟨hb, t, ht⟩ := getElem?_of_lt h.toSound (h.index _ hstate rfl)
  unfold createEnter
  rw [hb, ht]
  simp only
  have hset : Valid { c with bindingTrackers := c.bindingTrackers.set c.bindingIter 0 } :=
    h.of_same rfl List.length_set rfl rfl rfl
  apply valid_awaitConfirm
  exact ⟨⟨hset.lengths, hset.fault⟩, hset.index⟩

theorem valid_createHandler (h : Valid c) (hstate : c.state = some .create) (e : BindingEvent)
    (w : World) : Valid (c.createHandler e w) := by
  cases e with
  | apsConfirm id status => exact valid_apsConfirm h _ _ _
  | zdpResponse seq status =>
    have hindex := h.index _ hstate rfl
    rw [h.lengths] at hindex
    have hset : Sound { c with
        bindingTrackers := c.bindingTrackers.set c.bindingIter w.now } :=
      h.toSound.of_lengths rfl List.length_set rfl
    unfold createHandler
    simp only
    split
    · split
      · exact valid_setState_free hset rfl
      · exact valid_setState_free h.toSound rfl
    · exact h
  | poll | bindingTick | bindingTable | zdpMgmtBindResponse | zclReadReportConfigResponse
  | zclResponse => exact h

theorem valid_removeEnter (h : Valid c) (w : World) : Valid (c.removeEnter w) := by
  unfold removeEnter
  split
  · exact valid_setState_free h.toSound rfl
  · apply valid_awaitConfirm
    exact ⟨⟨h.lengths, h.fault⟩, h.index⟩

theorem valid_removeHandler (h : Valid c) (e : BindingEvent) : Valid (c.removeHandler e) := by
  cases e with
  | apsConfirm id status => exact valid_apsConfirm h _ _ _
  | zdpResponse seq status =>
    unfold removeHandler
    simp only
    split
    · have hset : Valid (c.setState .binding) := valid_setState_free h.toSound rfl
      exact ⟨⟨hset.lengths, hset.fault⟩, hset.index⟩
    · exact h
  | poll | bindingTick | bindingTable | zdpMgmtBindResponse | zclReadReportConfigResponse
  | zclResponse => exact h

theorem valid_readReportEnter (h : Valid c) (hstate : c.state = some .readReport) (w : World) :
    Valid (c.readReportEnter w) := by
  obtain ⟨hb, -⟩ := getElem?_of_lt h.toSound (h.index _ hstate rfl)
  unfold readReportEnter
  rw [hb]
  simp only
  split
  · exact valid_processNextBinding h.toSound
  · split
    · apply valid_processNextBinding
      exact ⟨h.lengths, h.fault⟩
    · apply valid_awaitConfirm
      exact ⟨⟨h.lengths, h.fault⟩, h.index⟩

theorem valid_readReportHandler (h : Valid c) (hstate : c.state = some .readReport)
    (e : BindingEvent) (w : World) :
    Valid (c.readReportHandler e w) := by
  cases e with
  | apsConfirm id status => exact valid_apsConfirm h _ _ _
  | zclReadReportConfigResponse rsp =>
    have hindex := h.index _ hstate rfl
    obtain ⟨hb, -⟩ := getElem?_of_lt h.toSound hindex
    unfold readReportHandler
    simp only
    rw [hb]
    simp only
    split
    · split
      · apply valid_setState
        · exact ⟨h.lengths, h.fault⟩
        · exact fun _ => hindex
      · apply valid_processNextBinding
        exact ⟨h.lengths, h.fault⟩
    · exact valid_setState h.toSound fun _ => hindex
  | poll | bindingTick | bindingTable | zdpMgmtBindResponse | zdpResponse | zclResponse => exact h

theorem valid_configureEnter (h : Valid c) (hstate : c.state = some .configureReporting) (w : World)
    : Valid (c.configureEnter w) := by
  obtain ⟨hb, -⟩ := getElem?_of_lt h.toSound (h.index _ hstate rfl)
  unfold configureEnter
  rw [hb]
  simp only
  split
  · apply valid_setState_free
    · exact ⟨h.lengths, h.fault⟩
    · rfl
  · apply valid_awaitConfirm
    exact ⟨⟨h.lengths, h.fault⟩, h.index⟩

theorem valid_configureHandler (h : Valid c) (hstate : c.state = some .configureReporting)
    (e : BindingEvent) :
    Valid (c.configureHandler e) := by
  cases e with
  | apsConfirm id status => exact valid_apsConfirm h _ _ _
  | zclResponse seq status =>
    have hindex := h.index _ hstate rfl
    obtain ⟨hb, -⟩ := getElem?_of_lt h.toSound hindex
    have hout : Sound (c.output .acknowledged) := ⟨h.lengths, h.fault⟩
    unfold configureHandler
    simp only
    split
    · split
      · rw [hb]
        simp only
        split
        · exact valid_setState hout fun _ => hindex
        · split
          · exact valid_setState hout fun _ => hindex
          · exact valid_processNextBinding hout
      · exact valid_setState_free h.toSound rfl
    · exact h
  | poll | bindingTick | bindingTable | zdpMgmtBindResponse | zdpResponse
  | zclReadReportConfigResponse => exact h

/-! ## One action -/

theorem valid_enter (h : Valid c) (w : World) : Valid (c.enter w) := by
  unfold enter
  cases hstate : c.state with
  | none => exact h
  | some s =>
    cases s with
    | binding => exact h
    | tableRead | tableVerify | idle => exact ⟨⟨h.lengths, h.fault⟩, h.index⟩
    | create => exact valid_createEnter h hstate w
    | remove => exact valid_removeEnter h w
    | readReport => exact valid_readReportEnter h hstate w
    | readNextReport => exact valid_setState h.toSound fun _ => h.index _ hstate rfl
    | configureNextReport => exact valid_setState h.toSound fun _ => h.index _ hstate rfl
    | configureReporting => exact valid_configureEnter h hstate w

theorem valid_handle (h : Valid c) (e : BindingEvent) (w : World) : Valid (c.handle e w) := by
  unfold handle
  cases hstate : c.state with
  | none => exact h
  | some s =>
    cases s with
    | readNextReport | configureNextReport | idle => exact h
    | binding => exact valid_bindingHandler h e w
    | tableRead => exact valid_tableReadHandler h e w
    | tableVerify => exact valid_tableVerifyHandler h hstate e w
    | create => exact valid_createHandler h hstate e w
    | remove => exact valid_removeHandler h e
    | readReport => exact valid_readReportHandler h hstate e w
    | configureReporting => exact valid_configureHandler h hstate e

theorem valid_handleEvent (h : Valid c) (e : BindingEvent) (w : World) :
    Valid (c.handleEvent e w) := by
  unfold handleEvent
  split
  · exact h
  · cases hdequeue : c.dequeue e with
    | none => exact h
    | some c' =>
      have hsame : Valid c' := by
        unfold dequeue at hdequeue
        split at hdequeue
        · split at hdequeue
          · cases hdequeue
            exact ⟨⟨h.lengths, h.fault⟩, h.index⟩
          · cases hdequeue
        · cases hdequeue
          exact h
      simp only
      split
      · exact hsame
      · exact valid_handle hsame e w

theorem valid_addBinding (h : Valid c) (bnd : DdfBinding) : Valid (c.addBinding bnd) := by
  unfold addBinding
  split
  · exact h.of_same (List.length_modify _ _ _) rfl rfl rfl rfl
  · refine ⟨⟨?_, h.fault⟩, ?_⟩
    · simp only
      rw [List.length_append, List.length_append, h.lengths]
      rfl
    · intro s hs hindexed
      have hindex := h.index s hs hindexed
      simp only
      rw [List.length_append]
      exact Nat.lt_add_right 1 hindex

theorem valid_clearState (h : Sound c) : Valid c.clearState.stopStateTimer := by
  have hleave := same_leave c
  refine ⟨h.of_lengths ?_ ?_ ?_, ?_⟩
  · exact congrArg List.length hleave.bindings
  · exact congrArg List.length hleave.bindingTrackers
  · exact hleave.fault
  · intro s hs
    cases hs

theorem valid_clearBindings (h : Valid c) : Valid c.clearBindings := by
  have hempty : Sound { c with bindings := [], bindingTrackers := [] } := ⟨rfl, h.fault⟩
  unfold clearBindings
  simp only
  split
  · rename_i hstate
    refine ⟨hempty, ?_⟩
    intro s hs
    have hnone : none = some s := hstate.symm.trans hs
    cases hnone
  · exact valid_setState_free hempty rfl

/-- **The step lemma.** -/
theorem valid_step (h : Valid c) (a : BindingAction) : Valid (c.step a) := by
  cases a with
  | stateEnter w =>
    unfold step stateEnter
    simp only
    split
    · exact h
    · apply valid_enter
      exact ⟨⟨h.lengths, h.fault⟩, h.index⟩
  | event e w => exact valid_handleEvent h e w
  | timeout =>
    unfold step
    simp only
    split
    · unfold stateTimeout
      split
      · exact ⟨⟨h.lengths, h.fault⟩, h.index⟩
      · split
        · apply valid_setState_free
          · exact ⟨h.lengths, h.fault⟩
          · rfl
        · exact ⟨⟨h.lengths, h.fault⟩, h.index⟩
    · exact h
  | idleEnter =>
    unfold step
    apply valid_setState_free
    · exact ⟨h.lengths, h.fault⟩
    · rfl
  | idleLeave => exact valid_clearState h.toSound
  | ddfReload =>
    have hclear := valid_clearState h.toSound
    exact ⟨⟨hclear.lengths, hclear.fault⟩, hclear.index⟩
  | clearBindings => exact valid_clearBindings h
  | addBinding bnd => exact valid_addBinding h bnd
  | setSupportsMgmtBind supported => exact ⟨⟨h.lengths, h.fault⟩, h.index⟩

/-- **The indices stay valid** in every run: the vectors have one length, `bindingIter` is
below it in every state that uses it, and no handler was outside of a vector. -/
theorem indices_valid (deviceKey : Nat) (acts : List BindingAction) :
    let c := Transition.run step { deviceKey := deviceKey } acts
    c.bindings.length = c.bindingTrackers.length ∧
      (∀ s, c.state = some s → Indexed s = true → c.bindingIter < c.bindings.length) ∧
      c.fault = false := by
  have hinit : Valid { deviceKey := deviceKey } := by
    refine ⟨⟨rfl, rfl⟩, ?_⟩
    intro s hs
    cases hs
  have hvalid : Valid (Transition.run step { deviceKey := deviceKey } acts) :=
    Transition.run_invariant (P := Valid) (fun _ a h => valid_step h a) hinit acts
  exact ⟨hvalid.lengths, hvalid.index, hvalid.fault⟩

end BindingContext
end DeconzRest
