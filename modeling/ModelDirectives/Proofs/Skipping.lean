import ModelDirectives.Json.Skip
import ModelDirectives.Proofs.Grammar

namespace ModelDirectives.Json

theorem Tree.tokens_head (t : Tree) :
    ∃ u us, t.tokens = u :: us ∧ u ≠ .closeBracket := by
  cases t <;> exact ⟨_, _, by rw [tokens], by simp⟩

namespace Skip

variable {frames : List Frame}

theorem run_step {s u : State} {t : Token} (open' : s.finished = false)
    (step : Skip.step s t = .ok u) (ts : List Token) : run s (t :: ts) = run u ts := by
  rw [run, if_neg (by simp [open']), step]
  rfl

theorem finished_of_frame (place : Place) (frame : Frame) :
    State.finished ⟨place, frame :: frames⟩ = false := by
  simp [State.finished]

/-- Behind an opening bracket a value is passed as anywhere else. -/
theorem run_opened (t : Tree) (rest : List Token) :
    run ⟨.opened, .list :: frames⟩ (t.tokens ++ rest) =
      run ⟨.value, .list :: frames⟩ (t.tokens ++ rest) := by
  obtain ⟨u, us, eq, open'⟩ := t.tokens_head
  have same : step ⟨.opened, .list :: frames⟩ u = step ⟨.value, .list :: frames⟩ u := by
    cases u <;> first | rfl | exact absurd rfl open'
  rw [eq, List.cons_append, run, run, finished_of_frame, finished_of_frame, same]

theorem run_key (key : List Piece) (ts : List Token) :
    run ⟨.key, .object :: frames⟩ (.string key .closed :: .colon :: ts) =
      run ⟨.value, .object :: frames⟩ ts :=
  (run_step (u := ⟨.colon, .object :: frames⟩) (finished_of_frame _ _) rfl _).trans
    (run_step (finished_of_frame _ _) rfl _)

/-- On to the value of a member, past the comma and the key in front of it. -/
theorem run_to_member (first : Bool) (key : List Piece) (ts rest : List Token) :
    run ⟨if first then .opened else .behind, .object :: frames⟩
      ((if first then .string key .closed :: .colon :: ts
        else .comma :: .string key .closed :: .colon :: ts) ++ rest) =
      run ⟨.value, .object :: frames⟩ (ts ++ rest) := by
  cases first with
  | true =>
    have key := run_step (s := ⟨.opened, .object :: frames⟩) (u := ⟨.colon, .object :: frames⟩)
      (t := .string key .closed) (finished_of_frame _ _) rfl (.colon :: (ts ++ rest))
    exact key.trans (run_step (finished_of_frame _ _) rfl _)
  | false =>
    have comma := run_step (s := ⟨.behind, .object :: frames⟩) (u := ⟨.key, .object :: frames⟩)
      (t := .comma) (finished_of_frame _ _) rfl (.string key .closed :: .colon :: (ts ++ rest))
    exact comma.trans (run_key key _)

mutual

/-- A tree is passed from where a value is due to where it has been passed. By induction on the
tree, with its items and members. -/
theorem run_tree : (t : Tree) → ∀ (frames : List Frame) (rest : List Token),
    run ⟨.value, frames⟩ (t.tokens ++ rest) = run ⟨.behind, frames⟩ rest
  | .null, _, _ | .bool _, _, _ | .number _, _, _ | .string _, _, _ => by
    rw [Tree.tokens]
    exact run_step rfl rfl _
  | .array items, frames, rest => by
    rw [Tree.tokens, List.cons_append, List.append_assoc]
    exact (run_step rfl rfl _).trans (run_items items true frames rest)
  | .object members, frames, rest => by
    rw [Tree.tokens, List.cons_append, List.append_assoc]
    exact (run_step rfl rfl _).trans (run_members members true frames rest)

theorem run_items : (ts : List Tree) → ∀ (first : Bool) (frames : List Frame) (rest : List Token),
    run ⟨if first then .opened else .behind, .list :: frames⟩
      (separated first (Tree.itemTokens ts) ++ ([.closeBracket] ++ rest)) =
        run ⟨.behind, frames⟩ rest
  | [], first, frames, rest => by
    cases first <;> exact run_step (finished_of_frame _ _) rfl _
  | t :: ts, first, frames, rest => by
    have later := run_items ts false frames rest
    have here := run_tree t (.list :: frames)
      (separated false (Tree.itemTokens ts) ++ ([.closeBracket] ++ rest))
    rw [Tree.itemTokens, separated, List.append_assoc]
    cases first with
    | true => exact (run_opened t _).trans (here.trans later)
    | false => exact (run_step (finished_of_frame _ _) rfl _).trans (here.trans later)

theorem run_members : (ms : List (List Piece × Tree)) → ∀ (first : Bool) (frames : List Frame)
    (rest : List Token),
    run ⟨if first then .opened else .behind, .object :: frames⟩
      (separated first (Tree.memberTokens ms) ++ ([.closeBrace] ++ rest)) =
        run ⟨.behind, frames⟩ rest
  | [], first, frames, rest => by
    cases first <;> exact run_step (finished_of_frame _ _) rfl _
  | (key, t) :: ms, first, frames, rest => by
    have later := run_members ms false frames rest
    have here := run_tree t (.object :: frames)
      (separated false (Tree.memberTokens ms) ++ ([.closeBrace] ++ rest))
    rw [Tree.memberTokens, separated, List.append_assoc, run_to_member]
    exact here.trans later

end

end Skip

/-- A value that is passed over leaves what stands behind it. -/
theorem Reader.skip_tokens (t : Tree) (rest : List Token) : skip (t.tokens ++ rest) = .ok rest := by
  rw [skip, Skip.run_tree]
  cases rest <;> rfl

end ModelDirectives.Json
