import ModelDirectives.Proofs.KeyedLists

namespace ModelDirectives

namespace Annotation

/-- One of the ways in which a parameter is written into an annotation. -/
inductive Writing where
  | set (p : Parameter)
  | put (name : String) (value : Value)
  | putUntyped (name : String)
  deriving DecidableEq

/-- The parameter that is written. -/
def Writing.parameter : Writing → Parameter
  | .set p => p
  | .put name value => ⟨name, some value⟩
  | .putUntyped name => ⟨name, none⟩

/-- The annotation behind a writing. -/
def after (a : Annotation) : Writing → Annotation
  | .set p => a.set p
  | .put name value => a.put name value
  | .putUntyped name => a.putUntyped name

/-- The annotation of a name that comes of a history of writings. -/
def ofHistory (name : String) (ws : List Writing) : Annotation :=
  ws.foldl after (named name)

theorem after_eq (a : Annotation) (w : Writing) :
    a.after w = ⟨a.name, Keyed.put (·.name) w.parameter a.parameters⟩ := by
  have written : a.after w = a.set w.parameter := by
    cases w <;> rfl
  rw [written, set, Parameter.write_eq_put]

/-- A history of writings leaves what is left when each is put over the one of its name. -/
theorem ofHistory_eq (name : String) (ws : List Writing) :
    ofHistory name ws = ⟨name, Keyed.collect (·.name) (ws.map Writing.parameter)⟩ := by
  induction ws using List.reverseRecOn with
  | nil => rfl
  | append_singleton ws w ih =>
    have last : ofHistory name (ws ++ [w]) = (ofHistory name ws).after w := by
      rw [ofHistory, List.foldl_append]
      rfl
    rw [last, ih, after_eq, List.map_append, List.map_singleton, Keyed.collect_concat]

variable {name p : String} {ws : List Writing} {w : Writing}

theorem parameter?_ofHistory (h : LastNamed (·.parameter.name) p ws w) :
    (ofHistory name ws).parameter? p = some w.parameter := by
  obtain ⟨before, after, rfl, named, others⟩ := h
  rw [ofHistory_eq]
  refine Keyed.find?_collect_eq_some_iff.mpr ⟨before.map Writing.parameter,
    after.map Writing.parameter, by rw [List.map_append, List.map_cons], named, ?_⟩
  exact List.forall_mem_map.mpr others

theorem parameter?_of_not_written (h : p ∉ ws.map (·.parameter.name)) :
    (ofHistory name ws).parameter? p = none := by
  rw [ofHistory_eq]
  exact Keyed.find?_collect_eq_none (by rwa [List.map_map])

theorem parameter?_after_of_ne (a : Annotation) (other : p ≠ w.parameter.name) :
    (a.after w).parameter? p = a.parameter? p := by
  rw [after_eq]
  exact Keyed.find?_put_of_ne other a.parameters

/-- Parameters stand under different names in the order of the first writings, each as it was
written last. One writing changes nothing about the other parameters, and made twice it does no more
than once. -/
theorem insertion_ordered (name : String) (ws : List Writing) :
    (ofHistory name ws).name = name ∧
    ((ofHistory name ws).parameters.map (·.name)).Nodup ∧
    (ofHistory name ws).parameters.map (·.name) = (ws.map (·.parameter.name)).eraseDups ∧
    (∀ p, p ∉ ws.map (·.parameter.name) → (ofHistory name ws).parameter? p = none ∧
      (ofHistory name ws).find? p = none) ∧
    (∀ p w, LastNamed (·.parameter.name) p ws w →
      (ofHistory name ws).parameter? p = some ⟨p, w.parameter.value⟩ ∧
        (ofHistory name ws).find? p = w.parameter.value) ∧
    ∀ (a : Annotation) (w : Writing),
      (∀ q, q ≠ w.parameter.name → (a.after w).parameter? q = a.parameter? q) ∧
      (a.after w).parameters.filter (·.name ≠ w.parameter.name) =
        a.parameters.filter (·.name ≠ w.parameter.name) ∧
      (a.after w).parameters.map (·.name) = a.parameters.map (·.name) ++
        (if w.parameter.name ∈ a.parameters.map (·.name) then [] else [w.parameter.name]) ∧
      ∀ v : Writing, v.parameter = w.parameter → (a.after w).after v = a.after w := by
  have names : (ofHistory name ws).parameters.map (·.name) =
      (ws.map (·.parameter.name)).eraseDups := by
    rw [ofHistory_eq, Keyed.keys_collect, List.map_map]
    rfl
  refine ⟨by rw [ofHistory_eq], ?_, names, ?_, ?_, fun a w => ⟨?_, ?_, ?_, ?_⟩⟩
  · rw [names]
    exact Keyed.nodup_eraseDups _
  · intro p h
    have missing : (ofHistory name ws).parameter? p = none := parameter?_of_not_written h
    exact ⟨missing, by rw [find?, missing, Option.bind_none]⟩
  · intro p w h
    have found : (ofHistory name ws).parameter? p = some w.parameter := parameter?_ofHistory h
    obtain ⟨-, -, -, rfl, -⟩ := h
    exact ⟨found, by rw [find?, found, Option.bind_some]⟩
  · exact fun q other => a.parameter?_after_of_ne other
  · rw [after_eq]
    exact Keyed.filter_put w.parameter a.parameters
  · rw [after_eq]
    exact Keyed.keys_put w.parameter a.parameters
  · intro v same
    rw [after_eq, after_eq, same, Keyed.put_put rfl]

/-- A history in which a name is written three times, the last time without a value. -/
def rewritten : List Writing :=
  [.put "name" (.string "a"), .put "required" (.bool true), .set ⟨"name", some (.bool false)⟩,
    .putUntyped "name"]

theorem insertion_ordered_rewritten :
    LastNamed (·.parameter.name) "name" rewritten (.putUntyped "name") ∧
      (ofHistory "json" rewritten).parameter? "name" = some ⟨"name", none⟩ ∧
      (ofHistory "json" rewritten).find? "name" = none ∧
      "context" ∉ rewritten.map (·.parameter.name) ∧
      (ofHistory "json" rewritten).parameter? "context" = none ∧
      (ofHistory "json" rewritten).parameters.map (·.name) = ["name", "required"] ∧
      "required" ≠ (Writing.putUntyped "name").parameter.name ∧
      ((ofHistory "json" rewritten).after (.putUntyped "name")).parameter? "required" =
        (ofHistory "json" rewritten).parameter? "required" ∧
      (Writing.set ⟨"name", none⟩).parameter = (Writing.putUntyped "name").parameter ∧
      ((ofHistory "json" rewritten).after (.putUntyped "name")).after (.set ⟨"name", none⟩) =
        (ofHistory "json" rewritten).after (.putUntyped "name") := by
  have last : LastNamed (·.parameter.name) "name" rewritten (.putUntyped "name") :=
    ⟨rewritten.take 3, [], rfl, rfl, List.forall_mem_nil _⟩
  have unwritten : "context" ∉ rewritten.map (·.parameter.name) := by decide
  have other : "required" ≠ (Writing.putUntyped "name").parameter.name := by decide
  obtain ⟨-, -, names, missing, found, one⟩ := insertion_ordered "json" rewritten
  obtain ⟨unchanged, -, -, twice⟩ := one (ofHistory "json" rewritten) (.putUntyped "name")
  exact ⟨last, (found _ _ last).1, (found _ _ last).2, unwritten, (missing _ unwritten).1,
    names.trans (by decide), other, unchanged _ other, rfl, twice _ rfl⟩

end Annotation

end ModelDirectives
