import FileMarket.Proofs.Grid.Loads

/-!
# Loads that are asked for

A grid waits for a load only as long as somebody is to bring its outcome. `Attended grid tokens`
says so of the loads that are out, one token for each. A load that is begun goes out
(`Attended.after`), and one whose outcome was offered is no longer out, whether the outcome was
taken or not (`Attended.finishLoad`).
-/

set_option autoImplicit false

namespace FileMarket.Grid

/-- The load that is waited for is out exactly once, and none is out that was not begun. -/
structure Attended (grid : Grid) (tokens : List LoadToken) : Prop where
  loading : ∀ token, grid.loading = some token → tokens.count token = 1
  generation_le : ∀ token ∈ tokens, token.generation ≤ grid.generation

namespace Attended

variable {grid grid' : Grid} {tokens tokens' : List LoadToken}

theorem perm (h : Attended grid tokens) (hperm : tokens.Perm tokens') : Attended grid tokens' where
  loading token hloading := by rw [← hperm.count_eq, h.loading token hloading]
  generation_le token hmem := h.generation_le token (hperm.mem_iff.2 hmem)

/-- The next load goes out. -/
theorem issue (h : Attended grid tokens) {token : LoadToken}
    (hnext : token.generation = grid.generation + 1)
    (hgeneration : grid'.generation = grid.generation + 1) (hloading : grid'.loading = some token) :
    Attended grid' (token :: tokens) where
  loading token' hloading' := by
    obtain rfl := Option.some.inj (hloading.symm.trans hloading')
    -- Its number is new, so no load that is out has this token.
    have hfresh : token ∉ tokens := by
      intro hmem
      have hle := h.generation_le token hmem
      omega
    rw [List.count_cons_self, List.count_eq_zero_of_not_mem hfresh]
  generation_le token' hmem := by
    rcases List.mem_cons.1 hmem with rfl | hmem
    · omega
    · have hle := h.generation_le token' hmem
      omega

/-- A step that begins no load, and after which no other is waited for. -/
theorem keep (h : Attended grid tokens) (hgeneration : grid.generation ≤ grid'.generation)
    (hloading : ∀ token, grid'.loading = some token → grid.loading = some token) :
    Attended grid' tokens where
  loading token hloading' := h.loading token (hloading token hloading')
  generation_le token hmem := (h.generation_le token hmem).trans hgeneration

/-- A load that is not waited for comes in. -/
theorem drop {token : LoadToken} (h : Attended grid (token :: tokens))
    (unawaited : grid.loading ≠ some token) : Attended grid tokens where
  loading token' hloading := by
    have hne : token ≠ token' := fun heq => unawaited (heq ▸ hloading)
    rw [← h.loading token' hloading, List.count_cons_of_ne hne]
  generation_le token' hmem := h.generation_le token' (List.mem_cons_of_mem token hmem)

/-- Every rule keeps the loads that are waited for out. -/
theorem transition {event : Event} {response : Response} (h : Attended grid tokens)
    (hn : Transition grid event response grid') :
    Attended grid' (issued [⟨event, response⟩] ++ tokens) := by
  rcases hn.loads with
    ⟨token, hissued, hnext, hgeneration, hloading⟩ | ⟨hissued, hgeneration, hloading⟩
  · rw [issued, List.filterMap_cons_some hissued]
    exact h.issue hnext hgeneration hloading
  · rw [issued, List.filterMap_cons_none hissued]
    exact h.keep hgeneration hloading

/-- What a run begins goes out. -/
theorem after (h : Attended grid tokens) (past : List Event) :
    Attended (after grid past) (issued (history grid past) ++ tokens) := by
  induction past with
  | nil => exact h
  | cons event past ih =>
    have hnext := ih.transition (transition_perform _ event)
    rwa [← List.append_assoc, issued, issued, ← List.filterMap_append] at hnext

/-- An outcome that was offered is not waited for any more. -/
theorem finishLoad {token : LoadToken} (h : Attended grid (token :: tokens))
    (result : Outcome (List FileRecord)) : Attended (grid.finishLoad token result).1 tokens := by
  have hrule := transition_finishLoad grid token result
  refine Attended.drop (h.transition hrule) ?_
  generalize grid.finishLoad token result = step at hrule
  obtain ⟨grid', reception⟩ := step
  cases hrule with
  | loaded => exact fun heq => by cases heq
  | loadFailed => exact fun heq => by cases heq
  | stale _ _ unawaited => exact unawaited

theorem new (target : Section) : Attended (new target) [] where
  loading token hloading := by cases hloading
  generation_le token hmem := by cases hmem

end Attended

end FileMarket.Grid
