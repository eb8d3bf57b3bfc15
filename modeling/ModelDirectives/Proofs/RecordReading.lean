import ModelDirectives.Json.Layout
import ModelDirectives.Proofs.TreeReading
import Mathlib.Data.List.Defs
import Mathlib.Data.List.Nodup

namespace ModelDirectives.Json

/-- A field of some record: the trees that write what the record holds there, and whether it may be
left out. -/
structure Slot where
  label : String
  writes : Tree → Prop
  omittable : Prop

/-- Members that write the slots that are still open, in any order and each of them once. A member
under none of the labels may hold any tree. -/
inductive WrittenMembers (labels : List String) : List Slot → List (List Piece × Tree) → Prop
  | done {pending : List Slot} (defaults : ∀ s ∈ pending, s.omittable) :
    WrittenMembers labels pending []
  | field {before after : List Slot} {s : Slot} {key : List Piece} {t : Tree}
      {ms : List (List Piece × Tree)} (named : Means key s.label.toList) (writes : s.writes t)
      (rest : WrittenMembers labels (before ++ after) ms) :
    WrittenMembers labels (before ++ s :: after) ((key, t) :: ms)
  | unknown {pending : List Slot} {k : String} {key : List Piece} {t : Tree}
      {ms : List (List Piece × Tree)} (named : Means key k.toList) (other : k ∉ labels)
      (rest : WrittenMembers labels pending ms) : WrittenMembers labels pending ((key, t) :: ms)

/-- The first slot that is open may be written first. -/
theorem WrittenMembers.next {labels : List String} {s : Slot} {slots : List Slot} {key : List Piece}
    {t : Tree} {ms : List (List Piece × Tree)} (named : Means key s.label.toList)
    (writes : s.writes t) (rest : WrittenMembers labels slots ms) :
    WrittenMembers labels (s :: slots) ((key, t) :: ms) :=
  @WrittenMembers.field labels [] slots s key t ms named writes rest

theorem WrittenMembers.none {labels : List String} : WrittenMembers labels [] [] :=
  .done (List.forall_mem_nil _)

inductive WrittenItems : List Slot → List Tree → Prop
  | done {pending : List Slot} (defaults : ∀ s ∈ pending, s.omittable) : WrittenItems pending []
  | field {s : Slot} {pending : List Slot} {t : Tree} {ts : List Tree} (writes : s.writes t)
      (rest : WrittenItems pending ts) : WrittenItems (s :: pending) (t :: ts)

inductive WrittenRecord (slots : List Slot) : Tree → Prop
  | object {ms : List (List Piece × Tree)}
      (h : WrittenMembers (slots.map (·.label)) slots ms) : WrittenRecord slots (.object ms)
  | array {ts : List Tree} (h : WrittenItems slots ts) : WrittenRecord slots (.array ts)

/-- A field of a layout, what is written for it in some record, and what reading that stores. -/
structure Entry (ρ : Type) where
  field : Field ρ
  slot : Slot
  store : ρ → ρ

namespace Entry

variable {ρ : Type}

structure Sound (depth : Nat) (e : Entry ρ) : Prop where
  label : e.field.label = e.slot.label
  required : e.field.required = true → ¬e.slot.omittable
  takes : ∀ t, e.slot.writes t → Takes (e.field.read depth) t e.store

variable {α : Type} (label : String) {read : Nat → Reader α} {store : α → ρ → ρ} {depth : Nat}
  {writes : Tree → Prop} {x : α}

theorem takes_stored {t : Tree} (takes : Takes (read depth) t x) :
    Takes ((Field.mandatory label read store).read depth) t (store x) := by
  intro rest
  show (read depth (t.tokens ++ rest) >>= fun p => .ok (store p.1, p.2)) = _
  rw [takes rest]
  rfl

variable {label}

theorem sound_mandatory (takes : ∀ t, writes t → Takes (read depth) t x) :
    Sound depth ⟨.mandatory label read store, ⟨label, writes, False⟩, store x⟩ where
  label := rfl
  required := fun _ => id
  takes t h := takes_stored label (takes t h)

theorem sound_optional {omittable : Prop} (takes : ∀ t, writes t → Takes (read depth) t x) :
    Sound depth ⟨.optional label read store, ⟨label, writes, omittable⟩, store x⟩ where
  label := rfl
  required := fun h => absurd h Bool.false_ne_true
  takes t h := takes_stored label (takes t h)

/-- The record with everything stored. -/
def fill (es : List (Entry ρ)) (r : ρ) : ρ :=
  es.foldl (fun r e => e.store r) r

theorem fill_of_defaults {es : List (Entry ρ)} {r : ρ} (h : ∀ e ∈ es, e.store r = r) :
    fill es r = r := by
  induction es with
  | nil => rfl
  | cons e es ih =>
    obtain ⟨here, later⟩ := List.forall_mem_cons.mp h
    rw [fill, List.foldl_cons, here]
    exact ih later

end Entry

namespace Layout

open Reader

variable {ρ : Type} {l : Layout ρ} {depth : Nat} {es pending seen : List (Entry ρ)} {r : ρ}

/-- The entries are the fields of a layout. In what order they are stored makes no difference. -/
structure Serves (l : Layout ρ) (depth : Nat) (es : List (Entry ρ)) : Prop where
  fields : l.fields = es.map (·.field)
  sound : ∀ e ∈ es, e.Sound depth
  distinct : (es.map (·.slot.label)).Nodup
  commute : ∀ e ∈ es, ∀ u ∈ es, ∀ r, u.store (e.store r) = e.store (u.store r)

namespace Serves

theorem field?_of_mem (h : l.Serves depth es) {e : Entry ρ} (he : e ∈ es) :
    l.field? e.slot.label = some e.field := by
  obtain ⟨before, after, rfl⟩ := List.append_of_mem he
  have distinct := h.distinct
  rw [List.map_append, List.map_cons, List.nodup_middle, List.nodup_cons] at distinct
  have label := (h.sound e he).label
  rw [field?, h.fields, List.map_append, List.map_cons, List.find?_append,
    List.find?_eq_none.mpr, List.find?_cons_of_pos (by simpa using label), Option.none_or]
  intro f hf
  obtain ⟨u, hu, rfl⟩ := List.mem_map.mp hf
  have other : u.slot.label ≠ e.slot.label := fun same =>
    distinct.1 (List.mem_append_left _ (List.mem_map.mpr ⟨u, hu, same⟩))
  rw [(h.sound u (List.mem_append_left _ hu)).label]
  simpa using other

theorem field?_of_not_mem (h : l.Serves depth es) {k : String}
    (other : k ∉ es.map (·.slot.label)) : l.field? k = none := by
  rw [field?, h.fields, List.find?_eq_none]
  intro f hf
  obtain ⟨e, he, rfl⟩ := List.mem_map.mp hf
  have differs : e.slot.label ≠ k := fun same => other (List.mem_map.mpr ⟨e, he, same⟩)
  rw [(h.sound e he).label]
  simpa using differs

/-- No required field is missing when all that is still open may be left out. -/
theorem missing?_eq_none (h : l.Serves depth es) (split : (pending ++ seen).Perm es)
    (defaults : ∀ e ∈ pending, e.slot.omittable) :
    l.missing? (seen.map (·.slot.label)) = none := by
  rw [missing?, h.fields, List.find?_eq_none]
  intro f hf
  obtain ⟨e, he, rfl⟩ := List.mem_map.mp hf
  have sound := h.sound e he
  rcases List.mem_append.mp (split.mem_iff.mpr he) with open' | read
  · have free : e.field.required = false :=
      Bool.eq_false_iff.mpr fun required => sound.required required (defaults e open')
    simp [free]
  · have written : (seen.map (·.slot.label)).contains e.field.label = true := by
      rw [List.contains_iff_mem, sound.label]
      exact List.mem_map.mpr ⟨e, read, rfl⟩
    simp only [written, Bool.not_true, Bool.and_false, Bool.false_eq_true, not_false_eq_true]

/-- The entry of a slot that is written goes from the open ones to the seen ones. -/
theorem perm_seen {before after : List (Entry ρ)} {e : Entry ρ}
    (split : (before ++ e :: after ++ seen).Perm es) : (before ++ after ++ e :: seen).Perm es :=
  List.perm_middle.trans ((List.perm_middle.symm.append_right seen).trans split)

theorem not_mem_seen (h : l.Serves depth es) {e : Entry ρ}
    (split : (pending ++ e :: seen).Perm es) :
    e.slot.label ∉ seen.map (·.slot.label) := by
  have distinct := (split.map (·.slot.label)).nodup_iff.mpr h.distinct
  rw [List.map_append, List.map_cons, List.nodup_middle, List.nodup_cons] at distinct
  exact fun seen => distinct.1 (List.mem_append_right _ seen)

/-- An entry from the middle may be stored first. -/
theorem fill_middle (h : l.Serves depth es) {before after : List (Entry ρ)} {e : Entry ρ}
    (inside : ∀ u ∈ before ++ e :: after, u ∈ es) (r : ρ) :
    Entry.fill (before ++ e :: after) r = Entry.fill (before ++ after) (e.store r) :=
  List.perm_middle.foldl_eq' (fun u hu v hv r => h.commute u (inside u hu) v (inside v hv) r) r

end Serves

/-- One field that is written is read and stored. -/
theorem fromMembers_field {f : Field ρ} {k : String} {seen : List String} {first : Bool} {b : Token}
    {bound ts us rest : List Token} {store : ρ → ρ} (listed : l.field? k = some f)
    (fresh : k ∉ seen) (key : nextKey first ts = .ok (.more k (.colon :: us)))
    (reads : f.read depth us = .ok (store, rest)) :
    l.fromMembers depth (b :: bound) seen first r ts =
      l.fromMembers depth bound (k :: seen) false (store r) rest := by
  rw [fromMembers, key]
  simp [listed, fresh, colon, reads, bind, Except.bind]

theorem fromMembers_unknown {k : String} {seen : List String} {first : Bool} {b : Token}
    {bound ts us rest : List Token} (unlisted : l.field? k = none)
    (key : nextKey first ts = .ok (.more k (.colon :: us))) (passed : skip us = .ok rest) :
    l.fromMembers depth (b :: bound) seen first r ts =
      l.fromMembers depth bound seen false r rest := by
  rw [fromMembers, key]
  simp [unlisted, colon, passed, bind, Except.bind]

/-- The invariant is that storing what is still open leads to the same record at every step, and
that an open field that may be left out holds its default. -/
theorem fromMembers_tokens (h : l.Serves depth es) {slots : List Slot}
    {ms : List (List Piece × Tree)}
    (written : WrittenMembers (es.map (·.slot.label)) slots ms)
    (opened : pending.map (·.slot) = slots) (split : (pending ++ seen).Perm es)
    (defaults : ∀ e ∈ pending, e.slot.omittable → e.store r = r) (first : Bool)
    (bound rest : List Token) (long : ms.length < bound.length) :
    l.fromMembers depth bound (seen.map (·.slot.label)) first r
      (separated first (Tree.memberTokens ms) ++ (.closeBrace :: rest)) =
        .ok (Entry.fill pending r, rest) := by
  induction written generalizing pending seen r first bound with
  | done omitted =>
    cases bound with
    | nil => simp at long
    | cons b bound =>
      subst opened
      have free : ∀ e ∈ pending, e.slot.omittable := fun e he =>
        omitted e.slot (List.mem_map.mpr ⟨e, he, rfl⟩)
      have complete := h.missing?_eq_none split free
      rw [Entry.fill_of_defaults fun e he => defaults e he (free e he)]
      show l.fromMembers depth (b :: bound) _ first r (.closeBrace :: rest) = _
      rw [fromMembers]
      simp only [nextKey, complete, bind, Except.bind]
  | @field slotsBefore slotsAfter s key t ms named writes _ ih =>
    cases bound with
    | nil => simp at long
    | cons b bound =>
      -- The slot may stand anywhere among the open ones; its entry stands in the same place.
      obtain ⟨before, tail, rfl, rfl, tailSlots⟩ := List.map_eq_append_iff.mp opened
      obtain ⟨e, after, rfl, rfl, rfl⟩ := List.map_eq_cons_iff.mp tailSlots
      have inside : ∀ u ∈ before ++ e :: after, u ∈ es := fun u hu =>
        split.mem_iff.mp (List.mem_append_left _ hu)
      have he : e ∈ es := inside e (by simp)
      have later := Serves.perm_seen split
      have fresh := h.not_mem_seen later
      have kept : ∀ u ∈ before ++ after, u.slot.omittable → u.store (e.store r) = e.store r := by
        intro u hu omittable
        have open' : u ∈ before ++ e :: after := List.perm_middle.mem_iff.mpr (.tail e hu)
        rw [h.commute e he u (inside u open'), defaults u open' omittable]
      rw [Tree.memberTokens, separated, List.append_assoc,
        fromMembers_field (h.field?_of_mem he) fresh (nextKey_of_means named first _ _)
          ((h.sound e he).takes t writes _),
        h.fill_middle inside]
      exact ih (List.map_append ..) later kept false bound (by simpa using long)
  | @unknown slots k key t ms named other _ ih =>
    cases bound with
    | nil => simp at long
    | cons b bound =>
      rw [Tree.memberTokens, separated, List.append_assoc,
        fromMembers_unknown (h.field?_of_not_mem other) (nextKey_of_means named first _ _)
          (skip_tokens t _)]
      exact ih opened split defaults false bound (by simpa using long)

theorem firstRequired_eq_none {es : List (Entry ρ)} (sound : ∀ e ∈ es, e.Sound depth)
    (free : ∀ e ∈ es, e.slot.omittable) (i : Nat) : firstRequired i (es.map (·.field)) = none := by
  induction es generalizing i with
  | nil => rfl
  | cons e es ih =>
    obtain ⟨here, later⟩ := List.forall_mem_cons.mp sound
    obtain ⟨omittable, omittableLater⟩ := List.forall_mem_cons.mp free
    have optional : e.field.required = false :=
      Bool.eq_false_iff.mpr fun required => here.required required omittable
    simp only [List.map_cons, firstRequired, optional, Bool.false_eq_true, if_false,
      ih later omittableLater]

/-- In a list the open entries are always the last ones of the layout. -/
theorem fromItems_tokens {slots : List Slot} {ts : List Tree} (written : WrittenItems slots ts)
    (opened : pending.map (·.slot) = slots) (sound : ∀ e ∈ pending, e.Sound depth)
    (commute : ∀ e ∈ pending, ∀ u ∈ pending, ∀ r, u.store (e.store r) = e.store (u.store r))
    (defaults : ∀ e ∈ pending, e.slot.omittable → e.store r = r) (i : Nat) (rest : List Token) :
    l.fromItems depth (pending.map (·.field)) i r
      (separated (i == 0) (Tree.itemTokens ts) ++ (.closeBracket :: rest)) =
        .ok (Entry.fill pending r, rest) := by
  induction written generalizing pending r i with
  | done omitted =>
    subst opened
    have free : ∀ e ∈ pending, e.slot.omittable := fun e he =>
      omitted e.slot (List.mem_map.mpr ⟨e, he, rfl⟩)
    rw [Entry.fill_of_defaults fun e he => defaults e he (free e he)]
    cases pending with
    | nil => rfl
    | cons e pending =>
      have none := firstRequired_eq_none sound free i
      show l.fromItems depth (e.field :: pending.map (·.field)) i r (.closeBracket :: rest) = _
      rw [List.map_cons] at none
      rw [fromItems]
      simp only [nextItem, none, bind, Except.bind]
  | @field s slots t ts writes _ ih =>
    obtain ⟨e, later, rfl, rfl, laterSlots⟩ := List.map_eq_cons_iff.mp opened
    have he : e ∈ e :: later := List.mem_cons_self
    have kept : ∀ u ∈ later, u.slot.omittable → u.store (e.store r) = e.store r := by
      intro u hu omittable
      rw [commute e he u (.tail e hu), defaults u (.tail e hu) omittable]
    have tail := ih laterSlots (fun u hu => sound u (.tail e hu))
      (fun u hu v hv => commute u (.tail e hu) v (.tail e hv)) kept (i + 1)
    have further : (i + 1 == 0) = false := rfl
    rw [further] at tail
    rw [Tree.itemTokens, separated, List.append_assoc, List.map_cons, fromItems,
      nextItem_tokens]
    simp only [(sound e he).takes t writes _, tail, bind, Except.bind]
    rfl

theorem Serves.takes_record (h : l.Serves depth es)
    (defaults : ∀ e ∈ es, e.slot.omittable → e.store l.blank = l.blank) {t : Tree}
    (written : WrittenRecord (es.map (·.slot)) t) :
    Takes (l.record (depth + 1)) t (Entry.fill es l.blank) := by
  intro rest
  cases written with
  | @object ms written =>
    have short := Tree.length_le_memberTokens ms
    have none : (es ++ []).Perm es := by simp
    rw [List.map_map] at written
    rw [Tree.tokens, List.cons_append, List.append_assoc, List.singleton_append, record]
    exact fromMembers_tokens h written rfl none defaults true _ rest
      (by simp only [List.length_append, List.length_cons]; omega)
  | @array ts written =>
    rw [Tree.tokens, List.cons_append, List.append_assoc, List.singleton_append, record, h.fields]
    exact fromItems_tokens written rfl h.sound h.commute defaults 0 rest

/-- The slots of a record, each with the field of its position and with what reading it stores. -/
def entries (l : Layout ρ) (slots : List Slot) (stores : List (ρ → ρ)) : List (Entry ρ) :=
  List.zipWith3 Entry.mk l.fields slots stores

/-- What reading each field stores of a record that is given. In what order it is stored makes no
difference, and all of it makes up the record. -/
structure Stores (l : Layout ρ) (stores : ρ → List (ρ → ρ)) : Prop where
  length : ∀ x, (stores x).length = l.fields.length
  distinct : (l.fields.map (·.label)).Nodup
  commute : ∀ x, ∀ f ∈ stores x, ∀ g ∈ stores x, ∀ r, g (f r) = f (g r)
  whole : ∀ x, (stores x).foldl (fun r f => f r) l.blank = x

theorem map_zipWith3 {fields : List (Field ρ)} {slots : List Slot} {stores : List (ρ → ρ)}
    (h : slots.length = fields.length) (h' : stores.length = fields.length) :
    (List.zipWith3 Entry.mk fields slots stores).map (·.field) = fields ∧
      (List.zipWith3 Entry.mk fields slots stores).map (·.slot) = slots ∧
      (List.zipWith3 Entry.mk fields slots stores).map (·.store) = stores := by
  induction fields generalizing slots stores with
  | nil => simp_all [List.zipWith3]
  | cons f fields ih =>
    obtain ⟨s, slots, rfl⟩ := List.exists_cons_of_length_eq_add_one h
    obtain ⟨g, stores, rfl⟩ := List.exists_cons_of_length_eq_add_one h'
    obtain ⟨ofFields, ofSlots, ofStores⟩ := ih (Nat.succ.inj h) (Nat.succ.inj h')
    refine ⟨?_, ?_, ?_⟩
    · exact congrArg (f :: ·) ofFields
    · exact congrArg (s :: ·) ofSlots
    · exact congrArg (g :: ·) ofStores

section Stored

variable {slots : List Slot} {stores : ρ → List (ρ → ρ)} {x : ρ}

theorem Stores.serves (h : l.Stores stores) (n : slots.length = l.fields.length)
    (sound : ∀ e ∈ l.entries slots (stores x), e.Sound depth) :
    l.Serves depth (l.entries slots (stores x)) := by
  obtain ⟨fields, -, stored⟩ := map_zipWith3 n (h.length x)
  have among : ∀ e ∈ l.entries slots (stores x), e.store ∈ stores x := fun e he =>
    stored ▸ List.mem_map_of_mem he
  have labels : (l.entries slots (stores x)).map (·.slot.label) = l.fields.map (·.label) := by
    conv_rhs => rw [← fields, List.map_map]
    exact List.map_congr_left fun e he => (sound e he).label.symm
  exact
    { fields := fields.symm
      sound := sound
      distinct := labels ▸ h.distinct
      commute := fun e he u hu => h.commute x e.store (among e he) u.store (among u hu) }

/-- A record is read from whatever tree it is written as. -/
theorem Stores.takes_record (h : l.Stores stores) (n : slots.length = l.fields.length)
    (sound : ∀ e ∈ l.entries slots (stores x), e.Sound depth)
    (defaults : ∀ e ∈ l.entries slots (stores x), e.slot.omittable → e.store l.blank = l.blank)
    {t : Tree} (written : WrittenRecord slots t) : Takes (l.record (depth + 1)) t x := by
  obtain ⟨-, opened, stored⟩ := map_zipWith3 n (h.length x)
  have filled : Entry.fill (l.entries slots (stores x)) l.blank = x := by
    have folded := h.whole x
    rwa [← stored, List.foldl_map] at folded
  have takes := (h.serves n sound).takes_record defaults (opened.symm ▸ written)
  rwa [filled] at takes

end Stored

end Layout

end ModelDirectives.Json
