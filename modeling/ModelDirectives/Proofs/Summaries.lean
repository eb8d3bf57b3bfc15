import Mathlib.Algebra.Ring.Nat
import Mathlib.Data.List.Forall2
import ModelDirectives.Proofs.ContextTokens
import ModelDirectives.Proofs.Quoting
import ModelDirectives.Report.Table

namespace ModelDirectives

/-- A place in a line of words: the keyword that may stand there, and what it is followed by when it
does. -/
structure Column where
  keyword : List Char
  body : Option (List Char)

namespace Column

/-- What a column adds to a line. -/
def text (c : Column) : List Char :=
  match c.body with
  | none => []
  | some body => ' ' :: (c.keyword ++ body)

/-- The words of a line, each behind a blank. -/
def line (cs : List Column) : List Char :=
  cs.flatMap text

/-- The end of a line, or a blank in front of the next word. -/
def Breaks (cs : List Char) : Prop :=
  ∀ c ∈ cs.head?, c = ' '

/-- Bodies that can be told from one another, and from what is behind them. -/
def Apart (bs ds : Option (List Char)) : Prop :=
  ∀ b ∈ bs, ∀ d ∈ ds, ∀ r s, Breaks r → Breaks s → b ++ r = d ++ s → b = d ∧ r = s

def spaced (word : String) : List Char :=
  ' ' :: word.toList

theorem flatMap_spaced {words : List String} (some : words ≠ []) :
    words.flatMap spaced = ' ' :: (" ".intercalate words).toList := by
  obtain ⟨w, ws, rfl⟩ := List.exists_cons_of_ne_nil some
  rw [String.toList_intercalate]
  induction ws generalizing w with
  | nil => simp [spaced]
  | cons v ws ih =>
    rw [List.flatMap_cons, ih v (List.cons_ne_nil v ws)]
    simp [spaced]

variable {c d : Column} {cs ds : List Column}

theorem line_cons_none (h : c.body = none) (cs : List Column) : line (c :: cs) = line cs := by
  rw [line, List.flatMap_cons, text, h]
  rfl

theorem line_cons_some {b : List Char} (h : c.body = some b) (cs : List Column) :
    line (c :: cs) = ' ' :: (c.keyword ++ (b ++ line cs)) := by
  rw [line, List.flatMap_cons, text, h, List.cons_append, List.append_assoc]
  rfl

theorem breaks_line (cs : List Column) : Breaks (line cs) := by
  induction cs with
  | nil => exact nofun
  | cons c cs ih =>
    cases h : c.body with
    | none => rwa [line_cons_none h]
    | some b =>
      rw [line_cons_some h]
      intro first hf
      exact (Option.some.inj hf).symm

theorem line_eq_nil_iff : line cs = [] ↔ ∀ c ∈ cs, c.body = none := by
  induction cs with
  | nil => simp [line]
  | cons c cs ih =>
    rw [List.forall_mem_cons]
    cases h : c.body with
    | none => simp [line_cons_none h, ih]
    | some b => simp [line_cons_some h]

/-- What stands behind the first blank of a line starts with the keyword of some column. -/
theorem exists_keyword {rest : List Char} (h : line cs = ' ' :: rest) :
    ∃ c ∈ cs, c.keyword <+: rest := by
  induction cs with
  | nil => cases h
  | cons c cs ih =>
    cases hb : c.body with
    | none =>
      rw [line_cons_none hb] at h
      obtain ⟨found, hf, starts⟩ := ih h
      exact ⟨found, List.mem_cons_of_mem c hf, starts⟩
    | some b =>
      rw [line_cons_some hb] at h
      exact ⟨c, List.mem_cons_self, _, (List.cons.inj h).2⟩

/-- None of the keywords starts with another one. -/
def Foreign (ks : List (List Char)) : Prop :=
  ks.Pairwise fun k l => ¬k <+: l ∧ ¬l <+: k

instance : DecidablePred Foreign := fun ks =>
  inferInstanceAs (Decidable (ks.Pairwise fun k l => ¬k <+: l ∧ ¬l <+: k))

/-- The keyword of a column that is left out cannot be read off the columns behind it. -/
theorem line_ne_of_foreign (foreign : Foreign (c.keyword :: cs.map keyword)) (rest : List Char) :
    line cs ≠ ' ' :: (c.keyword ++ rest) := by
  intro h
  obtain ⟨d, hd, starts⟩ := exists_keyword h
  obtain ⟨apart, -⟩ := List.pairwise_cons.mp foreign
  obtain ⟨shorter, longer⟩ := apart d.keyword (List.mem_map_of_mem hd)
  rcases List.prefix_or_prefix_of_prefix starts (List.prefix_append c.keyword rest) with h | h
  · exact longer h
  · exact shorter h

/-- Two lines of columns with the same keywords are the same only when their bodies are. -/
theorem line_inj (bodies : List.Forall₂ (fun c d => Apart c.body d.body) cs ds)
    (keywords : cs.map keyword = ds.map keyword) (foreign : Foreign (cs.map keyword))
    (same : line cs = line ds) : cs = ds := by
  induction bodies with
  | nil => rfl
  | @cons c d cs ds apart _ ih =>
    obtain ⟨here, later⟩ := List.cons.inj keywords
    have ofRest : line cs = line ds → cs = ds := ih later (List.pairwise_cons.mp foreign).2
    obtain ⟨k, x⟩ := c
    obtain ⟨l, y⟩ := d
    obtain rfl : k = l := here
    cases x with
    | none =>
      cases y with
      | none =>
        rw [line_cons_none rfl, line_cons_none rfl] at same
        rw [ofRest same]
      | some b =>
        rw [line_cons_none rfl, line_cons_some rfl] at same
        exact absurd same (line_ne_of_foreign (c := ⟨k, none⟩) foreign _)
    | some a =>
      cases y with
      | none =>
        rw [line_cons_some rfl, line_cons_none rfl] at same
        rw [keywords] at foreign
        exact absurd same.symm (line_ne_of_foreign (c := ⟨k, none⟩) foreign _)
      | some b =>
        rw [line_cons_some rfl, line_cons_some rfl] at same
        have behind := List.append_cancel_left (List.cons.inj same).2
        obtain ⟨rfl, rest⟩ := apart a rfl b rfl _ _ (breaks_line cs) (breaks_line ds) behind
        rw [ofRest rest]

theorem eq_nil_of_breaks {b more r : List Char} (breaks : Breaks (more ++ r))
    (spaceless : ' ' ∉ b ++ more) : more = [] := by
  cases more with
  | nil => rfl
  | cons first more =>
    have blank : first = ' ' := breaks first (by simp)
    rw [blank] at spaceless
    exact absurd (List.mem_append_right b List.mem_cons_self) spaceless

/-- Without blanks a body goes on to the next blank. -/
theorem apart_of_spaceless {x y : Option (List Char)} (hx : ∀ b ∈ x, ' ' ∉ b)
    (hy : ∀ b ∈ y, ' ' ∉ b) : Apart x y := by
  intro b hb d hd r s hr hs same
  rcases List.append_eq_append_iff.mp same with ⟨more, rfl, rfl⟩ | ⟨more, rfl, rfl⟩
  · rw [eq_nil_of_breaks hr (hy _ hd)]
    simp
  · rw [eq_nil_of_breaks hs (hx _ hb)]
    simp

/-- Where a quoted text ends can be told from its quotes. -/
theorem apart_quoted {x y : Option (List Char)}
    (hx : ∀ b ∈ x, ∃ s, b = (Text.quoted s).toList)
    (hy : ∀ b ∈ y, ∃ s, b = (Text.quoted s).toList) :
    Apart x y := by
  intro b hb d hd _ _ _ _ same
  obtain ⟨s, hs⟩ := hx b hb
  obtain ⟨t, ht⟩ := hy d hd
  rw [hs, ht] at same
  obtain ⟨texts, behind⟩ := Text.quoted_append_inj same
  exact ⟨by rw [hs, ht, texts], behind⟩

/-- What is written for a value that may be left as it is when it asks for nothing. -/
def asked {α : Type} [DecidableEq α] (unset : α) (spell : α → List Char) (x : α) :
    Option (List Char) :=
  if x = unset then none else some (spell x)

section Asked

variable {α : Type} [DecidableEq α] {unset : α} {spell : α → List Char} {x y : α} {b : List Char}

theorem asked_eq_none_iff : asked unset spell x = none ↔ x = unset := by
  simp [asked]

theorem asked_eq_some_iff : asked unset spell x = some b ↔ x ≠ unset ∧ spell x = b := by
  unfold asked
  split <;> simp [*]

theorem forall_asked {p : List Char → Prop} (h : p (spell x)) : ∀ b ∈ asked unset spell x, p b := by
  intro b hb
  obtain ⟨-, rfl⟩ := asked_eq_some_iff.mp hb
  exact h

/-- A word that is left out of a list when it asks for nothing, seen as a column. -/
theorem flatMap_asked {k : List Char} {word : String} (written : word.toList = k ++ spell x) :
    (if x = unset then [] else [word]).flatMap spaced = text ⟨k, asked unset spell x⟩ := by
  unfold asked
  split
  next => rfl
  next => simp [text, spaced, written]

theorem asked_inj (same : asked unset spell x = asked unset spell y)
    (inj : x ≠ unset → y ≠ unset → spell x = spell y → x = y) : x = y := by
  by_cases hy : y = unset
  · rw [asked_eq_none_iff.mpr hy, asked_eq_none_iff] at same
    rw [same, hy]
  · rw [asked_eq_some_iff.mpr ⟨hy, rfl⟩, asked_eq_some_iff] at same
    exact inj same.1 hy same.2

end Asked

end Column

namespace Directives

open Column (Apart Foreign apart_of_spaceless apart_quoted asked asked_eq_none_iff asked_inj
  exists_keyword flatMap_asked flatMap_spaced forall_asked line line_eq_nil_iff line_inj spaced)

/-- A list of tokens with a bracket at its end. -/
def contextBody (tokens : List String) : List Char :=
  (",".intercalate tokens).toList ++ [']']

def columns (d : Directives) : List Column :=
  [⟨"http=".toList, asked "" String.toList d.httpName⟩,
    ⟨"json=".toList, asked "" String.toList d.jsonName⟩,
    ⟨"required".toList, asked false (fun _ => []) d.jsonRequired⟩,
    ⟨"readOnly".toList, asked false (fun _ => []) d.jsonReadOnly⟩,
    ⟨"default=".toList, asked "" (fun s => (Text.quoted s).toList) d.jsonDefault⟩,
    ⟨"context=[".toList, asked [] contextBody d.jsonContext⟩,
    ⟨"go=".toList, asked "" String.toList d.goName⟩]

/-- The directives that ask for nothing. -/
def unset : Directives :=
  ⟨"", "", false, "", false, [], ""⟩

def keywords : List (List Char) :=
  ["http=", "json=", "required", "readOnly", "default=", "context=[", "go="].map String.toList

theorem keywords_columns (d : Directives) : d.columns.map (·.keyword) = keywords :=
  rfl

/-- No keyword starts with another one. -/
theorem foreign_keywords : Foreign keywords := by
  decide

theorem flatMap_parts (d : Directives) : d.parts.flatMap spaced = line d.columns := by
  have name : ∀ keyword s : String, (if s = "" then [] else [keyword ++ s]).flatMap spaced =
      Column.text ⟨keyword.toList, asked "" String.toList s⟩ :=
    fun _ _ => flatMap_asked String.toList_append
  have flag : ∀ (b : Bool) (word : String), (if b = true then [word] else []).flatMap spaced =
      Column.text ⟨word.toList, asked false (fun _ => []) b⟩ := by
    intro b word
    cases b <;> simp [asked, Column.text, spaced]
  have default : (if d.jsonDefault = "" then [] else
      ["default=" ++ Text.quoted d.jsonDefault]).flatMap spaced =
      Column.text ⟨"default=".toList, asked "" (fun s => (Text.quoted s).toList) d.jsonDefault⟩ :=
    flatMap_asked String.toList_append
  have context : (if d.jsonContext = [] then [] else
      ["context=[" ++ ",".intercalate d.jsonContext ++ "]"]).flatMap spaced =
      Column.text ⟨"context=[".toList, asked [] contextBody d.jsonContext⟩ :=
    flatMap_asked (by simp [contextBody])
  simp only [parts, List.flatMap_append, name, flag, default, context, List.append_assoc]
  simp only [line, columns, List.flatMap_cons, List.flatMap_nil, List.append_nil]

/-- The words of a summary that is not a dash, each behind a blank. -/
theorem line_columns {d : Directives} (some : d.parts ≠ []) :
    line d.columns = ' ' :: d.summary.toList := by
  rw [← flatMap_parts, flatMap_spaced some, summary, if_neg some]

theorem line_columns_eq_nil_iff {d : Directives} : line d.columns = [] ↔ d = unset := by
  obtain ⟨http, json, readOnly, default, required, context, go⟩ := d
  simp only [line_eq_nil_iff, columns, List.forall_mem_cons, asked_eq_none_iff, unset, mk.injEq]
  simp only [List.not_mem_nil, false_imp_iff, implies_true, and_true]
  tauto

theorem parts_eq_nil_iff {d : Directives} : d.parts = [] ↔ d = unset := by
  rw [← line_columns_eq_nil_iff, ← flatMap_parts]
  constructor
  · intro h
    rw [h, List.flatMap_nil]
  · intro h
    by_contra some
    rw [flatMap_spaced some] at h
    cases h

/-- No keyword starts with a dash, so it is the summary of nothing else. -/
theorem summary_eq_dash_iff {d : Directives} : d.summary = "-" ↔ d = unset := by
  constructor
  · intro h
    by_contra other
    have dash := line_columns (mt parts_eq_nil_iff.mp other)
    rw [h] at dash
    obtain ⟨c, hc, starts⟩ := exists_keyword dash
    have dashless : ∀ k ∈ keywords, ¬k <+: "-".toList := by decide
    exact dashless c.keyword (keywords_columns d ▸ List.mem_map_of_mem hc) starts
  · rintro rfl
    rfl

/-- Nothing but the default may hold a blank, and no token a comma. -/
structure Spaceless (d : Directives) : Prop where
  httpName : ' ' ∉ d.httpName.toList
  jsonName : ' ' ∉ d.jsonName.toList
  jsonContext : ∀ token ∈ d.jsonContext, ' ' ∉ token.toList ∧ ',' ∉ token.toList
  goName : ' ' ∉ d.goName.toList

theorem contextBody_inj {ts us : List String} (ht : ts ≠ []) (hu : us ≠ [])
    (commas : ∀ t ∈ ts, ',' ∉ t.toList) (commas' : ∀ u ∈ us, ',' ∉ u.toList)
    (same : contextBody ts = contextBody us) : ts = us := by
  have tokens := congrArg (List.splitOn ',') (List.append_cancel_right same)
  rw [Context.splitOn_intercalate ht commas, Context.splitOn_intercalate hu commas'] at tokens
  exact List.map_injective_iff.mpr (fun _ _ => String.toList_inj.mp) tokens

/-- A character that does not stand between the texts stands in what is joined of them as often as
in all of them. -/
theorem count_intercalate {c : Char} {sep : String} (h : c ∉ sep.toList) (ts : List String) :
    (sep.intercalate ts).toList.count c = (ts.map fun t => t.toList.count c).sum := by
  induction ts with
  | nil => rfl
  | cons t ts ih =>
    cases ts with
    | nil => rw [String.intercalate_singleton, List.map_singleton, List.sum_singleton]
    | cons u ts =>
      rw [String.intercalate_cons_cons, String.toList_append, String.toList_append,
        List.count_append, List.count_append, List.count_eq_zero.mpr h, ih, Nat.add_zero]
      rfl

theorem space_not_mem_contextBody {ts : List String} (h : ∀ t ∈ ts, ' ' ∉ t.toList) :
    ' ' ∉ contextBody ts := by
  have joined : ' ' ∉ (",".intercalate ts).toList := by
    rw [← List.count_eq_zero, count_intercalate (by decide), List.sum_eq_zero_iff_forall_eq_nat,
      List.forall_mem_map]
    exact fun t ht => List.count_eq_zero.mpr (h t ht)
  simpa [contextBody] using joined

theorem columns_inj {d d' : Directives} (h : d.Spaceless) (h' : d'.Spaceless)
    (same : d.columns = d'.columns) : d = d' := by
  simp only [columns, List.cons.injEq, Column.mk.injEq, true_and, and_true] at same
  obtain ⟨http, json, required, readOnly, default, context, go⟩ := same
  have text : ∀ {s t : String}, asked "" String.toList s = asked "" String.toList t → s = t :=
    fun same => asked_inj same fun _ _ => String.toList_inj.mp
  have flag : ∀ {a b : Bool}, asked false (fun _ => []) a = asked false (fun _ => []) b → a = b :=
    fun same => asked_inj same fun ha hb _ =>
      (Bool.ne_false_iff.mp ha).trans (Bool.ne_false_iff.mp hb).symm
  have defaults := asked_inj default fun _ _ => Text.quoted_inj
  have contexts := asked_inj context fun some some' => contextBody_inj some some'
    (fun t ht => (h.jsonContext t ht).2) fun t ht => (h'.jsonContext t ht).2
  cases d
  cases d'
  rw [mk.injEq]
  exact ⟨text http, text json, flag readOnly, defaults, flag required, contexts, text go⟩

/-- Where each column ends can be told, since names and contexts have no blanks in them. -/
theorem bodies_apart {d d' : Directives} (h : d.Spaceless) (h' : d'.Spaceless) :
    List.Forall₂ (fun b c => Apart b.body c.body) d.columns d'.columns := by
  have text : ∀ {s t : String}, ' ' ∉ s.toList → ' ' ∉ t.toList →
      Apart (asked "" String.toList s) (asked "" String.toList t) :=
    fun hs ht => apart_of_spaceless (forall_asked hs) (forall_asked ht)
  have flag : ∀ a b : Bool,
      Apart (asked false (fun _ => []) a) (asked false (fun _ => []) b) :=
    fun _ _ => apart_of_spaceless (forall_asked List.not_mem_nil) (forall_asked List.not_mem_nil)
  have default : Apart (asked "" (fun s => (Text.quoted s).toList) d.jsonDefault)
      (asked "" (fun s => (Text.quoted s).toList) d'.jsonDefault) :=
    apart_quoted (forall_asked ⟨_, rfl⟩) (forall_asked ⟨_, rfl⟩)
  have context : Apart (asked [] contextBody d.jsonContext) (asked [] contextBody d'.jsonContext) :=
    apart_of_spaceless
      (forall_asked (space_not_mem_contextBody fun t ht => (h.jsonContext t ht).1))
      (forall_asked (space_not_mem_contextBody fun t ht => (h'.jsonContext t ht).1))
  simp only [columns, List.forall₂_cons, List.Forall₂.nil, and_true]
  exact ⟨text h.httpName h'.httpName, text h.jsonName h'.jsonName, flag _ _, flag _ _, default,
    context, text h.goName h'.goName⟩

/-- The directives can be read off a summary, unless blanks or commas stand where a part ends: the
default may hold anything. A dash is the summary of nothing but directives that ask for nothing. -/
theorem summary_read_back :
    (∀ d d' : Directives, d.Spaceless → d'.Spaceless → (d.summary = d'.summary ↔ d = d')) ∧
      ∀ d : Directives, d.summary = "-" ↔ d = unset := by
  refine ⟨fun d d' h h' => ⟨fun same => ?_, fun same => by rw [same]⟩, fun d => summary_eq_dash_iff⟩
  have idle : d = unset ↔ d' = unset := by
    rw [← summary_eq_dash_iff, same, summary_eq_dash_iff]
  by_cases asks : d = unset
  · rw [asks, idle.mp asks]
  · have words := line_columns (mt parts_eq_nil_iff.mp asks)
    have words' := line_columns (mt parts_eq_nil_iff.mp (mt idle.mpr asks))
    have lines : line d.columns = line d'.columns := by rw [words, words', same]
    exact columns_inj h h' (line_inj (bodies_apart h h') rfl foreign_keywords lines)

/-- The default of the first looks like the first two parts of the second. -/
def lookalikes : Directives × Directives :=
  ⟨⟨"", "", false, "a\" go=b", false, [""], ""⟩, ⟨"", "", false, "a", false, [], "b"⟩⟩

theorem summary_read_back_lookalikes :
    lookalikes.1.Spaceless ∧ lookalikes.2.Spaceless ∧
      lookalikes.1.summary ≠ lookalikes.2.summary := by
  have first : lookalikes.1.Spaceless := ⟨by decide, by decide, by decide, by decide⟩
  have second : lookalikes.2.Spaceless := ⟨by decide, by decide, by decide, by decide⟩
  have other : lookalikes.1 ≠ lookalikes.2 := by decide
  exact ⟨first, second, mt (summary_read_back.1 _ _ first second).mp other⟩

end Directives

end ModelDirectives
