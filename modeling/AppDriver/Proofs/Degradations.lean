import AppDriver.Proofs.RegistryChanges

/-! The record of degradations. An entry is added only for a stand-in that exists, and stand-ins are
never removed. -/

namespace AppDriver

namespace Store

variable {n : Nat} {batch : List Component} {busy : List TypeName} {s s' : Store}

/-- Whether every recorded degradation is one of a stand-in of the store. -/
def Recorded (s : Store) : Prop := ∀ d ∈ s.degradations, s.Has d.standIn

theorem Recorded.extend (h : s.Recorded) (harena : s.arena <+: s'.arena)
    (heq : s'.degradations = s.degradations) : s'.Recorded := by
  intro d hd
  rw [heq] at hd
  exact (h d hd).extend harena

theorem Recorded.record (h : s.Recorded) {x : StandInRef} (hx : s.Has x) (subject : String)
    (reason : DegradationReason) : (s.record x subject reason).Recorded := by
  intro d hd
  rcases List.mem_append.1 hd with hold | hnew
  · exact h d hold
  · obtain rfl := List.mem_singleton.1 hnew
    exact hx

theorem Recorded.pushDegenerate (h : s.Recorded) (t : TypeName) (origin : Origin)
    (hint subject : String) (reason : DegradationReason) :
    (s.pushDegenerate t origin hint subject reason).2.Recorded :=
  (h.extend (s.push_arena t origin .degenerate hint) rfl).record
    (s.push_has t origin .degenerate hint) subject reason

theorem Effect.recorded (heffect : Effect n batch busy s s') (h : s.Recorded) : s'.Recorded := by
  have harena := heffect.grows.arena
  cases heffect with
  | value t => exact h.extend harena (by rw [Store.value]; split <;> rfl)
  | typedNull t => exact h.extend harena (by rw [Store.typedNull]; split <;> rfl)
  | push | forgetCycle | enroll => exact h.extend harena rfl
  | record subject reason hx => exact h.record hx subject reason
  | @cutCycle t origin hint => exact h.pushDegenerate t origin hint t.text .cycle
  | @settleAmbient t x =>
      refine h.extend harena ?_
      rw [Store.settleAmbient]
      split
      · rfl
      · dsimp only
        split
        · rfl
        · split <;> rfl

theorem Runs.recorded (hruns : Runs n batch busy s s') (h : s.Recorded) : s'.Recorded :=
  hruns.rel (R := fun s s' => s.Recorded → s'.Recorded) (fun _ h => h)
    (fun h h' hs => h' (h hs)) Effect.recorded h

end Store

theorem Workshop.register_recorded (w : Workshop) (batch : List Component) {s : Store}
    (hs : s.Sound) (c : Component) (h : s.Recorded) : (w.register batch c s).2.Recorded := by
  rw [register]
  split
  · exact h
  · obtain ⟨hruns, -⟩ := (w.fabrication_obtains batch).2.2.1 (Underway.enterClass {} c.name)
      (c.constructorParams.map .ofType) s hs
    exact (hruns.recorded h).extend (Store.enroll_grows _ c _).arena rfl

theorem Store.Change.recorded {w : Workshop} {s s' : Store} (hchange : Store.Change w s s')
    (hs : s.Sound) (h : s.Recorded) : s'.Recorded := by
  cases hchange with
  | remember hsame hsound =>
      exact h.extend (hsame.arena ▸ List.prefix_refl _) hsame.degradations
  | fabricate t id hint =>
      obtain ⟨hruns, -⟩ := (w.fabrication_obtains []).2.1 {} t (.identifier id) hint s hs
      exact hruns.recorded h
  | ambient t => exact ((w.fabrication_obtains []).1 {} t s hs).1.recorded h
  | value t =>
      have hvalue : Store.Effect w.arrayLength [] [] s _ := .value s t
      exact hvalue.recorded h
  | register batch c => exact w.register_recorded batch hs c h
  | missing t id subject => exact h.pushDegenerate t _ _ subject _
  | service name subject hnew =>
      exact (h.pushDegenerate _ _ _ subject _).extend List.prefix_rfl rfl
  | unresolved t => exact h.extend (s.push_arena t _ _ _) rfl
  | derived parent step hint => exact h.extend (s.push_arena step.returns _ _ _) rfl

theorem Registry.Reachable.recorded {r : Registry} (h : r.Reachable) : r.store.Recorded :=
  h.of_changes (P := Store.Recorded) (fun _ hd => (List.not_mem_nil hd).elim)
    Store.Change.recorded

end AppDriver
