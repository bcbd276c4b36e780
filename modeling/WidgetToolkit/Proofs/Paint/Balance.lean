import WidgetToolkit.Proofs.Paint.Coverage

/-! # Nested calls are balanced

They restore what they have saved and nothing else, so a painter goes on after them as before. -/

namespace WidgetToolkit

variable {K : Type} [Coord K]

namespace Recorder

/-- A recorder before, between and after calls. -/
def moments (recorder : Recorder K) : List (PaintCall K) → List (Recorder K)
  | [] => [recorder]
  | call :: rest => recorder :: (recorder.apply call).moments rest

theorem mem_moments_append {recorder moment : Recorder K} {calls further : List (PaintCall K)}
    (hm : moment ∈ recorder.moments (calls ++ further)) :
    moment ∈ recorder.moments calls ∨ moment ∈ (recorder.run calls).moments further := by
  induction calls generalizing recorder with
  | nil => exact .inr hm
  | cons call rest ih =>
      rcases List.mem_cons.mp hm with rfl | hm
      · exact .inl List.mem_cons_self
      · rcases ih hm with hm | hm
        · exact .inl (List.mem_cons_of_mem _ hm)
        · exact .inr hm

theorem run_mem_moments (recorder : Recorder K) (calls : List (PaintCall K)) :
    recorder.run calls ∈ recorder.moments calls := by
  induction calls generalizing recorder with
  | nil => exact List.mem_singleton_self _
  | cons call rest ih => exact List.mem_cons_of_mem _ (ih _)

/-- A recorder has still saved what another one had saved, and has counted no more stray restores. -/
structure Retains (recorder moment : Recorder K) : Prop where
  saved : recorder.saved <:+ moment.saved
  strayRestores : moment.strayRestores = recorder.strayRestores

omit [Coord K] in
theorem Retains.refl (recorder : Recorder K) : recorder.Retains recorder := ⟨List.suffix_rfl, rfl⟩

omit [Coord K] in
theorem Retains.trans {a b c : Recorder K} (hab : a.Retains b) (hbc : b.Retains c) :
    a.Retains c :=
  ⟨hab.saved.trans hbc.saved, hbc.strayRestores.trans hab.strayRestores⟩

/-- The way into a scope of its own. -/
theorem retains_enter {recorder moment : Recorder K} {offset : Offset K} {bounds : Rect K}
    (hm : moment ∈ recorder.moments [.save, .translate offset, .clip bounds]) :
    recorder.Retains moment := by
  simp only [moments, List.mem_cons, List.not_mem_nil, or_false] at hm
  rcases hm with rfl | rfl | rfl | rfl
  · exact .refl _
  · exact ⟨List.suffix_cons _ _, rfl⟩
  · exact ⟨List.suffix_cons _ _, rfl⟩
  · exact ⟨List.suffix_cons _ _, rfl⟩

end Recorder

open Recorder (Retains)

/-- The way out of a scope, after calls that leave the scope as they find it. -/
theorem WellNested.retains_leave {calls : List (PaintCall K)} (h : WellNested calls)
    {recorder moment : Recorder K} {offset : Offset K} {bounds : Rect K}
    (hstray : ((recorder.enter offset bounds).run calls).strayRestores = recorder.strayRestores)
    (hm : moment ∈ ((recorder.enter offset bounds).run calls).moments [.restore]) :
    recorder.Retains moment := by
  have hsaved : ((recorder.enter offset bounds).run calls).saved =
      recorder.scope :: recorder.saved := (h.alike _).saved_eq
  simp only [Recorder.moments, List.mem_cons, List.not_mem_nil, or_false] at hm
  rcases hm with rfl | rfl
  · refine ⟨?_, hstray⟩
    rw [hsaved]
    exact List.suffix_cons _ _
  · simp only [Recorder.apply, hsaved]
    exact ⟨List.suffix_rfl, hstray⟩

/-- What was saved before the calls is saved at every moment of them, so no restore goes astray. -/
theorem WellNested.retains {calls : List (PaintCall K)} (h : WellNested calls)
    {recorder moment : Recorder K} (hm : moment ∈ recorder.moments calls) :
    recorder.Retains moment := by
  induction h generalizing recorder moment with
  | nil =>
      rw [List.mem_singleton.mp hm]
      exact .refl recorder
  | @draw call hcall =>
      simp only [Recorder.moments, List.mem_cons, List.not_mem_nil, or_false] at hm
      rcases hm with rfl | rfl
      · exact .refl moment
      · cases call <;> first | exact ⟨List.suffix_rfl, rfl⟩ | cases hcall
  | @append calls further hcalls hfurther ih ihfurther =>
      rcases Recorder.mem_moments_append hm with hm | hm
      · exact ih hm
      · exact (ih (recorder.run_mem_moments calls)).trans (ihfurther hm)
  | @inside offset bounds calls hcalls ih =>
      have henter : recorder.Retains (recorder.enter offset bounds) :=
        Recorder.retains_enter (recorder.run_mem_moments _)
      rcases Recorder.mem_moments_append hm with hm | hm
      · rcases Recorder.mem_moments_append hm with hm | hm
        · exact Recorder.retains_enter hm
        · exact henter.trans (ih hm)
      · rw [Recorder.run_append] at hm
        have hstray := (ih ((recorder.enter offset bounds).run_mem_moments calls)).strayRestores
        exact hcalls.retains_leave (hstray.trans henter.strayRestores) hm

end WidgetToolkit
