import ModelDirectives.Document.Reader
import ModelDirectives.Proofs.Acceptable
import ModelDirectives.Proofs.KeyedLists

namespace ModelDirectives.Json

def Yields {α : Type} (r : Reader α) (p : α → Prop) : Prop :=
  ∀ ts x rest, r ts = .ok (x, rest) → p x

namespace Reader

variable {α : Type}

theorem itemsFrom_yields {item : Reader α} {p : α → Prop} (h : Yields item p)
    (bound : List Token) (first : Bool) : Yields (itemsFrom item bound first) (∀ x ∈ ·, p x) := by
  induction bound generalizing first with
  | nil =>
    intro ts xs rest hr
    cases hr
  | cons b bound ih =>
    intro ts xs rest hr
    obtain ⟨turn, _, hr⟩ := ok_of_bind hr
    cases turn with
    | done after =>
      cases hr
      simp
    | more _ ts =>
      obtain ⟨⟨x, after⟩, hx, hr⟩ := ok_of_bind hr
      obtain ⟨⟨ys, last⟩, hy, hr⟩ := ok_of_bind hr
      cases hr
      exact List.forall_mem_cons.mpr ⟨h _ _ _ hx, ih false _ _ _ hy⟩

theorem sequence_yields {item : Nat → Reader α} {p : α → Prop} (h : ∀ depth, Yields (item depth) p)
    (depth : Nat) : Yields (sequence item depth) (∀ x ∈ ·, p x) := by
  intro ts xs rest hr
  unfold sequence at hr
  split at hr
  next => cases hr
  next =>
    split at hr
    next => cases hr
    next => exact itemsFrom_yields (h _) _ _ _ _ _ hr
  next => cases hr

theorem mapping_yields (depth : Nat) :
    Yields (mapping depth) fun ms => (ms.map Prod.fst).Nodup := by
  intro ts ms rest hr
  unfold mapping at hr
  split at hr
  next => cases hr
  next =>
    split at hr
    next => cases hr
    next =>
      obtain ⟨⟨written, after⟩, _, hr⟩ := ok_of_bind hr
      cases hr
      exact collect_nodup written
  next => cases hr

end Reader

/-- A field keeps a property of records, whatever is read for it. -/
def Field.Keeps {ρ : Type} (f : Field ρ) (p : ρ → Prop) : Prop :=
  ∀ depth, Yields (f.read depth) fun change => ∀ r, p r → p (change r)

namespace Field

variable {ρ β : Type} {p : ρ → Prop}

theorem mandatory_keeps {label : String} {read : Nat → Reader β} {store : β → ρ → ρ}
    {q : β → Prop} (h : ∀ depth, Yields (read depth) q)
    (stores : ∀ x r, q x → p r → p (store x r)) :
    (mandatory label read store).Keeps p := by
  intro depth ts change rest hr
  obtain ⟨⟨x, after⟩, hx, hr⟩ := ok_of_bind hr
  cases hr
  exact fun r => stores x r (h depth _ _ _ hx)

theorem optional_keeps {label : String} {read : Nat → Reader β} {store : β → ρ → ρ}
    {q : β → Prop} (h : ∀ depth, Yields (read depth) q)
    (stores : ∀ x r, q x → p r → p (store x r)) :
    (optional label read store).Keeps p := by
  show (mandatory label read store).Keeps p
  exact mandatory_keeps h stores

end Field

namespace Layout

variable {ρ : Type} {l : Layout ρ} {p : ρ → Prop}

/-- What all fields keep holds of a record at every step. -/
theorem fromMembers_yields (keeps : ∀ f ∈ l.fields, f.Keeps p) (depth : Nat) (bound : List Token)
    (seen : List String) (first : Bool) (r : ρ) (hp : p r) :
    Yields (l.fromMembers depth bound seen first r) p := by
  induction bound generalizing seen first r with
  | nil =>
    intro ts x rest hr
    cases hr
  | cons b bound ih =>
    intro ts x rest hr
    obtain ⟨turn, _, hr⟩ := ok_of_bind hr
    cases turn with
    | done after =>
      simp only at hr
      split at hr
      next => cases hr
      next =>
        cases hr
        exact hp
    | more k after =>
      simp only at hr
      split at hr
      next =>
        obtain ⟨behind, _, hr⟩ := ok_of_bind hr
        obtain ⟨behind, _, hr⟩ := ok_of_bind hr
        exact ih _ _ _ hp _ _ _ hr
      next f hf =>
        split at hr
        next => cases hr
        next =>
          obtain ⟨behind, _, hr⟩ := ok_of_bind hr
          obtain ⟨⟨change, behind⟩, hc, hr⟩ := ok_of_bind hr
          have kept := keeps f (List.mem_of_find?_eq_some hf) depth _ _ _ hc
          exact ih _ _ _ (kept r hp) _ _ _ hr

theorem fromItems_yields (depth : Nat) {fs : List (Field ρ)} (keeps : ∀ f ∈ fs, f.Keeps p) (i : Nat)
    (r : ρ) (hp : p r) : Yields (l.fromItems depth fs i r) p := by
  induction fs generalizing i r with
  | nil =>
    intro ts x rest hr
    obtain ⟨after, _, hr⟩ := ok_of_bind hr
    cases hr
    exact hp
  | cons f fs ih =>
    obtain ⟨here, later⟩ := List.forall_mem_cons.mp keeps
    intro ts x rest hr
    obtain ⟨turn, _, hr⟩ := ok_of_bind hr
    cases turn with
    | done after =>
      simp only at hr
      split at hr
      next => cases hr
      next =>
        cases hr
        exact hp
    | more _ after =>
      obtain ⟨⟨change, behind⟩, hc, hr⟩ := ok_of_bind hr
      exact ih later _ _ (here depth _ _ _ hc r hp) _ _ _ hr

theorem record_yields (keeps : ∀ f ∈ l.fields, f.Keeps p) (blank : p l.blank) (depth : Nat) :
    Yields (l.record depth) p := by
  intro ts x rest hr
  unfold record at hr
  split at hr
  next => cases hr
  next =>
    split at hr
    next => cases hr
    next => exact fromItems_yields _ keeps _ _ blank _ _ _ hr
  next =>
    split at hr
    next => cases hr
    next => exact fromMembers_yields keeps _ _ _ _ _ blank _ _ _ hr
  next => cases hr

end Layout

/-- Of a field that a property does not look at nothing need be known. -/
theorem yields_true {α : Type} (read : Nat → Reader α) (depth : Nat) :
    Yields (read depth) fun _ => True :=
  fun _ _ _ _ => trivial

end ModelDirectives.Json

namespace ModelDirectives

open Json
open Json.Reader (sequence_yields mapping_yields)
open Json.Layout (record_yields)
open Json.Field (mandatory_keeps optional_keeps)

theorem AnnotationEntry.record_yields_distinct (depth : Nat) :
    Yields (layout.record depth) KeysDistinct := by
  refine record_yields (l := layout) ?_ List.nodup_nil depth
  simp only [layout, List.forall_mem_cons, List.not_mem_nil, false_imp_iff, implies_true, and_true]
  refine ⟨mandatory_keeps (yields_true _) ?_, optional_keeps mapping_yields ?_⟩
  · exact fun _ _ _ h => h
  · exact fun _ _ h _ => h

theorem AttributeEntry.record_yields_distinct (depth : Nat) :
    Yields (layout.record depth) (∀ a ∈ ·.annotations, a.KeysDistinct) := by
  refine record_yields (l := layout) ?_ (by simp [layout]) depth
  simp only [layout, List.forall_mem_cons, List.not_mem_nil, false_imp_iff, implies_true, and_true]
  refine ⟨mandatory_keeps (yields_true _) ?_, mandatory_keeps (yields_true _) ?_,
    optional_keeps (sequence_yields AnnotationEntry.record_yields_distinct) ?_⟩
  · exact fun _ _ _ h => h
  · exact fun _ _ _ h => h
  · exact fun _ _ h _ => h

theorem MemberEntry.record_yields_distinct (depth : Nat) :
    Yields (layout.record depth) (∀ a ∈ ·.annotations, a.KeysDistinct) := by
  refine record_yields (l := layout) ?_ (by simp [layout]) depth
  simp only [layout, List.forall_mem_cons, List.not_mem_nil, false_imp_iff, implies_true, and_true]
  refine ⟨mandatory_keeps (yields_true _) ?_,
    optional_keeps (sequence_yields AnnotationEntry.record_yields_distinct) ?_⟩
  · exact fun _ _ _ h => h
  · exact fun _ _ h _ => h

theorem TypeEntry.record_yields_distinct (depth : Nat) :
    Yields (layout.record depth) (∀ a ∈ ·.allAnnotations, a.KeysDistinct) := by
  refine record_yields (l := layout) ?_ (by simp [layout, allAnnotations]) depth
  simp only [layout, List.forall_mem_cons, List.not_mem_nil, false_imp_iff, implies_true, and_true,
    forall_mem_allAnnotations]
  refine ⟨mandatory_keeps (yields_true _) ?_, optional_keeps (yields_true _) ?_,
    optional_keeps (sequence_yields AnnotationEntry.record_yields_distinct) ?_,
    optional_keeps (sequence_yields AttributeEntry.record_yields_distinct) ?_,
    optional_keeps (sequence_yields MemberEntry.record_yields_distinct) ?_,
    optional_keeps (sequence_yields MemberEntry.record_yields_distinct) ?_⟩
  · exact fun _ _ _ h => h
  · exact fun _ _ _ h => h
  · exact fun _ _ h kept => ⟨h, kept.2⟩
  · exact fun _ _ h kept => ⟨kept.1, h, kept.2.2⟩
  · exact fun _ _ h kept => ⟨kept.1, kept.2.1, h, kept.2.2.2⟩
  · exact fun _ _ h kept => ⟨kept.1, kept.2.1, kept.2.2.1, h⟩

/-- No annotation in a document that is read repeats a key. -/
theorem Document.record_yields_distinct (depth : Nat) :
    Yields (layout.record depth) KeysDistinct := by
  refine record_yields (l := layout) ?_ (by simp [layout, KeysDistinct]) depth
  simp only [layout, List.forall_mem_cons, List.not_mem_nil, false_imp_iff, implies_true, and_true]
  refine optional_keeps (sequence_yields TypeEntry.record_yields_distinct) ?_
  exact fun _ _ h _ => h

theorem Document.keysDistinct_of_read {s : String} {d : Document} (h : read s = .ok d) :
    d.KeysDistinct := by
  obtain ⟨⟨x, rest⟩, hx, h⟩ := ok_of_bind h
  have distinct := record_yields_distinct _ _ _ _ hx
  cases rest with
  | nil =>
    cases h
    exact distinct
  | cons t rest => cases h

end ModelDirectives
