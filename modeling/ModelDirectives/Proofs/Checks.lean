import ModelDirectives.Proofs.Remarks

namespace ModelDirectives.Check

open Remark

variable {α β : Type}

/-- A check makes the remarks of a list in order: all of them, which are then notices, or those up
to the first violation. What it builds if it is passed is named beforehand. -/
inductive Tells : Check α → List Remark → α → Prop
  | passed (ns : List Notice) (x : α) : Tells ⟨ns, .ok x⟩ (ns.map .notice) x
  | stopped (ns : List Notice) (v : Violation) (unsaid : List Remark) (x : α) :
    Tells ⟨ns, .error v⟩ (ns.map .notice ++ .violation v :: unsaid) x

theorem accept_tells (x : α) : (accept x).Tells [] x :=
  .passed [] x

theorem refuse_tells (v : Violation) (x : α) : (refuse v).Tells [.violation v] x :=
  .stopped [] v [] x

theorem notice_tells (n : Notice) : (notice n).Tells [.notice n] () :=
  .passed [n] ()

theorem require_tells {holds : Bool} {fault : Prop} [Decidable fault] (v : Violation)
    (opposite : holds = true ↔ ¬fault) :
    (require holds v).Tells (given fault (.violation v)) () := by
  unfold require given
  by_cases h : fault
  · rw [if_pos h, if_neg fun passed => opposite.mp passed h]
    exact refuse_tells v ()
  · rw [if_neg h, if_pos (opposite.mpr h)]
    exact accept_tells ()

/-- A chain of two checks makes the remarks of both, the second one with what the first one has
built. -/
theorem Tells.bind {c : Check α} {next : α → Check β} {rs ss : List Remark} {x : α} {y : β}
    (first : c.Tells rs x) (second : (next x).Tells ss y) : (c >>= next).Tells (rs ++ ss) y := by
  show (andThen c next).Tells (rs ++ ss) y
  cases first with
  | passed ns x =>
    generalize hd : next x = d at second
    unfold andThen
    simp only [hd]
    cases second with
    | passed ms y =>
      rw [← List.map_append]
      exact .passed _ y
    | stopped ms v unsaid y =>
      rw [← List.append_assoc, ← List.map_append]
      exact .stopped _ v unsaid y
  | stopped ns v unsaid x =>
    rw [List.append_assoc, List.cons_append]
    exact .stopped ns v _ y

theorem Tells.bind_accept {c : Check α} {rs : List Remark} {x : α} (h : c.Tells rs x)
    (f : α → β) : (c >>= fun z => accept (f z)).Tells rs (f x) := by
  have whole : (c >>= fun z => accept (f z)).Tells (rs ++ []) (f x) := h.bind (accept_tells (f x))
  rwa [List.append_nil] at whole

/-- What comes before the first violation, and the violation itself, are found in one way only. -/
theorem split_unique {ns ms : List Notice} {v w : Violation} {rs ss : List Remark}
    (h : ns.map .notice ++ .violation v :: rs = ms.map .notice ++ .violation w :: ss) :
    ns = ms ∧ v = w := by
  induction ns generalizing ms with
  | nil =>
    cases ms with
    | nil =>
      cases h
      exact ⟨rfl, rfl⟩
    | cons m ms => cases h
  | cons n ns ih =>
    cases ms with
    | nil => cases h
    | cons m ms =>
      obtain ⟨head, tail⟩ := List.cons.inj h
      cases head
      obtain ⟨rfl, same⟩ := ih tail
      exact ⟨rfl, same⟩

section Verdict

variable {c : Check α} {rs : List Remark} {x y : α} {v : Violation}

/-- A check fails with the first violation among its remarks, having told all the notices before. -/
theorem Tells.eq_error_iff (h : c.Tells rs x) {log : List Notice} :
    c = ⟨log, .error v⟩ ↔ ∃ unsaid, rs = log.map .notice ++ .violation v :: unsaid := by
  constructor
  · intro hc
    cases h with
    | passed ns x => cases hc
    | stopped ns w unsaid x =>
      cases hc
      exact ⟨unsaid, rfl⟩
  · intro hr
    obtain ⟨unsaid, eq⟩ := hr
    cases h with
    | passed ns x =>
      have among : Remark.violation v ∈ ns.map Remark.notice := by simp [eq]
      simp at among
    | stopped ns w rest x =>
      obtain ⟨rfl, rfl⟩ := split_unique eq
      rfl

theorem Tells.verdict_eq_error_iff (h : c.Tells rs x) :
    c.verdict = .error v ↔ fault? rs = some v := by
  cases h with
  | passed ns x => simp [fault?_notices]
  | stopped ns w unsaid x =>
    rw [fault?_append, fault?_notices, Option.none_or, Except.error.injEq]
    exact (Option.some_inj (a := w) (b := v)).symm

/-- A check is passed when there is no violation among its remarks. -/
theorem Tells.verdict_eq_ok_iff (h : c.Tells rs x) :
    c.verdict = .ok y ↔ fault? rs = none ∧ y = x := by
  cases h with
  | passed ns x => simp [fault?_notices, eq_comm]
  | stopped ns w unsaid x =>
    rw [fault?_append, fault?_notices, Option.none_or]
    exact iff_of_false nofun fun none => nomatch none.1

theorem Tells.exists_ok_iff (h : c.Tells rs x) : (∃ y, c.verdict = .ok y) ↔ fault? rs = none := by
  simp [h.verdict_eq_ok_iff]

end Verdict

theorem each_tells {check : α → Check β} {remarks : α → List Remark} {result : α → β}
    (item : ∀ x, (check x).Tells (remarks x) (result x)) (xs : List α) :
    (each check xs).Tells (xs.flatMap remarks) (xs.map result) := by
  induction xs with
  | nil => exact accept_tells []
  | cons x xs ih =>
    rw [List.flatMap_cons]
    exact (item x).bind (ih.bind_accept (result x :: ·))

/-- A loop that remembers the names behind it makes on every item the remarks that follow from the
items before it. Names that were taken from the beginning stay so. -/
theorem loop_tells {ε : Type} (nameOf : ε → String) (others : List String)
    (loop : List String → List ε → Check (List β)) {remarks : List ε → ε → List Remark}
    {result : ε → β} (nil : ∀ taken, loop taken [] = accept [])
    (cons : ∀ taken before e rest ss ys,
      (∀ n, n ∈ taken ↔ n ∈ others ∨ ∃ f ∈ before, nameOf f = n) →
      (loop (nameOf e :: taken) rest).Tells ss ys →
        (loop taken (e :: rest)).Tells (remarks before e ++ ss) (result e :: ys))
    (es : List ε) : (loop others es).Tells (inTurn remarks es) (es.map result) := by
  -- The names remembered in the middle of the run are those of the items passed so far.
  have run : ∀ (taken : List String) (before : List ε),
      (∀ n, n ∈ taken ↔ n ∈ others ∨ ∃ f ∈ before, nameOf f = n) →
      (loop taken es).Tells (inTurn (fun more => remarks (before ++ more)) es)
        (es.map result) := by
    induction es with
    | nil =>
      intro taken before _
      rw [nil]
      exact accept_tells []
    | cons e es ih =>
      intro taken before remembered
      have behind : ∀ n, n ∈ nameOf e :: taken ↔
          n ∈ others ∨ ∃ f ∈ before ++ [e], nameOf f = n := by
        intro n
        rw [List.mem_cons, remembered]
        simp only [List.mem_append, List.mem_singleton, or_and_right, exists_or, exists_eq_left]
        rw [or_left_comm, or_comm (a := n = nameOf e), eq_comm (a := n)]
      have later := ih (nameOf e :: taken) (before ++ [e]) behind
      simp only [List.append_assoc, List.singleton_append] at later
      rw [inTurn_cons, List.append_nil]
      exact cons taken before e es _ _ remembered later
  exact run others [] (by simp)

end ModelDirectives.Check
