import Mathlib.Algebra.Ring.Nat
import ModelDirectives.Command.Resolve
import ModelDirectives.Proofs.FileTrees
import ModelDirectives.Proofs.RoundTrip

namespace ModelDirectives

theorem Report.problems_eq_sum (m : Model) :
    (ofModel m).totals.problems = ((ofModel m).rows.map (·.problems.length)).sum :=
  List.length_flatMap

/-- The text of a report in one of its two forms. -/
inductive Report.RenderedAs (r : Report) : Format → String → Prop
  | json : RenderedAs r .json r.jsonText
  | text : RenderedAs r .text r.table

theorem Report.renderedAs_render (r : Report) (format : Format) :
    r.RenderedAs format (r.render format) := by
  cases format with
  | json => exact .json
  | text => exact .text

namespace Run

variable {Place : Type} {fs : FileSystem Place} {files : Files Place} {o o' : Options}

def loading (fs : FileSystem Place) (files : Files Place) (o : Options) : Loading :=
  Loading.ofFile (fs.read files o.model)

/-- What stands in the log in the end. -/
def logged (fs : FileSystem Place) (files : Files Place) (o : Options) : List Notice :=
  (resolve o (fs.read files o.model)).notices.filter o.logs

/-- A model is loaded, and its report is not held back. -/
def Passes (fs : FileSystem Place) (files : Files Place) (o : Options) (m : Model) : Prop :=
  (loading fs files o).outcome = .ok m ∧ (o.strict && (Report.ofModel m).hasProblems) = false

theorem resolve_of_error {fault : LoadFault} (load : (loading fs files o).outcome = .error fault) :
    (resolve o (fs.read files o.model)).outcome = .error (.load o.model fault) := by
  unfold loading at load
  simp only [resolve, load]

theorem resolve_of_ok {m : Model} (load : (loading fs files o).outcome = .ok m) :
    (resolve o (fs.read files o.model)).outcome =
      if o.strict && (Report.ofModel m).hasProblems then
        .error (.strict (Report.ofModel m).totals.problems)
      else .ok ((Report.ofModel m).render o.format) := by
  unfold loading at load
  simp only [resolve, load]

theorem notices_resolve (o o' : Options) (file : Except FileFault ByteArray) :
    (resolve o' file).notices = (resolve o file).notices := by
  unfold resolve
  cases h : (Loading.ofFile file).outcome with
  | error fault => simp only [h]
  | ok m => simp only [h]

/-- Neither strictness nor the form of the report nor where it goes is seen in the log. -/
theorem logged_congr (model : o'.model = o.model) (verbose : o'.verbose = o.verbose)
    (quiet : o'.quiet = o.quiet) : logged fs files o' = logged fs files o := by
  have same : o'.logs = o.logs := by
    funext n
    simp only [Options.logs, verbose, quiet]
  unfold logged
  rw [same, model, notices_resolve o o']

theorem loading_congr (model : o'.model = o.model) :
    loading fs files o' = loading fs files o := by
  unfold loading
  rw [model]

variable [DecidableEq Place]

/-- The run after its log and what came of resolving are known. -/
def handingOver (fs : FileSystem Place) (files : Files Place) (log : List Notice)
    (out : Option String) (outcome : Except Failure String) : Run Place :=
  let (result, after) := Program.handOver fs.host log out outcome files
  ⟨result, after⟩

/-- A run reads one file and hands over what comes of it. -/
theorem ofOptions_eq (fs : FileSystem Place) (files : Files Place) (o : Options) :
    ofOptions fs files o = handingOver fs files (logged fs files o) o.out
      (resolve o (fs.read files o.model)).outcome :=
  rfl

theorem handingOver_error (log : List Notice) (out : Option String) (failure : Failure) :
    handingOver fs files log out (.error failure) = ⟨.failed log failure, files⟩ :=
  rfl

theorem handingOver_print (log : List Notice) (rendered : String) :
    handingOver fs files log none (.ok rendered) = ⟨.finished log rendered, files⟩ :=
  rfl

theorem handingOver_write (log : List Notice) (path rendered : String) :
    handingOver fs files log (some path) (.ok rendered) =
      match fs.write files path rendered.toUTF8 with
      | .error fault => ⟨.failed log (.output fault), files⟩
      | .ok after => ⟨.finished log ("Wrote " ++ path ++ "\n"), after⟩ := by
  have written : fs.host.write path rendered.toUTF8 files =
      match fs.write files path rendered.toUTF8 with
      | .error fault => (.error fault, files)
      | .ok after => (.ok (), after) := by
    simp only [FileSystem.host, bind, StateT.bind, get, getThe, MonadStateOf.get, StateT.get, pure]
    cases fs.write files path rendered.toUTF8 <;> rfl
  simp only [handingOver, Program.handOver, bind, StateT.bind, written]
  cases fs.write files path rendered.toUTF8 <;> rfl

/-- The ways in which a run can go. -/
inductive Course (fs : FileSystem Place) (files : Files Place) (o : Options) : Run Place → Prop
  | unloaded {fault : LoadFault} (load : (loading fs files o).outcome = .error fault) :
    Course fs files o ⟨.failed (logged fs files o) (.load o.model fault), files⟩
  | gated {m : Model} (load : (loading fs files o).outcome = .ok m) (strict : o.strict)
      (problems : (Report.ofModel m).hasProblems) :
    Course fs files o
      ⟨.failed (logged fs files o) (.strict (Report.ofModel m).totals.problems), files⟩
  | unwritten {m : Model} {path : String} {fault : FileFault} (passes : Passes fs files o m)
      (out : o.out = some path)
      (write : fs.write files path ((Report.ofModel m).render o.format).toUTF8 = .error fault) :
    Course fs files o ⟨.failed (logged fs files o) (.output fault), files⟩
  | printed {m : Model} (passes : Passes fs files o m) (out : o.out = none) :
    Course fs files o
      ⟨.finished (logged fs files o) ((Report.ofModel m).render o.format), files⟩
  | written {m : Model} {path : String} {after : Files Place} (passes : Passes fs files o m)
      (out : o.out = some path)
      (write : fs.write files path ((Report.ofModel m).render o.format).toUTF8 = .ok after) :
    Course fs files o ⟨.finished (logged fs files o) ("Wrote " ++ path ++ "\n"), after⟩

/-- Every run takes one of the five courses. -/
theorem course (fs : FileSystem Place) (files : Files Place) (o : Options) :
    Course fs files o (ofOptions fs files o) := by
  rw [ofOptions_eq]
  cases load : (loading fs files o).outcome with
  | error fault =>
    rw [resolve_of_error load, handingOver_error]
    exact .unloaded load
  | ok m =>
    rw [resolve_of_ok load]
    cases gate : o.strict && (Report.ofModel m).hasProblems with
    | true =>
      obtain ⟨strict, problems⟩ := Bool.and_eq_true_iff.mp gate
      rw [if_pos rfl, handingOver_error]
      exact .gated load strict problems
    | false =>
      rw [if_neg Bool.false_ne_true]
      cases out : o.out with
      | none =>
        rw [handingOver_print]
        exact .printed ⟨load, gate⟩ out
      | some path =>
        rw [handingOver_write]
        cases write : fs.write files path ((Report.ofModel m).render o.format).toUTF8 with
        | error fault => exact .unwritten ⟨load, gate⟩ out write
        | ok after => exact .written ⟨load, gate⟩ out write

/-- What makes a run fail. -/
inductive Blocked (fs : FileSystem Place) (files : Files Place) (o : Options) : Prop
  | unloaded (fault : LoadFault) (load : (loading fs files o).outcome = .error fault)
  | gated (m : Model) (load : (loading fs files o).outcome = .ok m) (strict : o.strict)
      (problems : (Report.ofModel m).hasProblems)
  | unwritten (m : Model) (path : String) (fault : FileFault)
      (load : (loading fs files o).outcome = .ok m) (out : o.out = some path)
      (write : fs.write files path ((Report.ofModel m).render o.format).toUTF8 = .error fault)

/-- A run that has passed its checks is blocked by nothing but the writing of its output. -/
theorem Passes.of_blocked {m : Model} (passes : Passes fs files o m) (h : Blocked fs files o) :
    ∃ path fault, o.out = some path ∧
      fs.write files path ((Report.ofModel m).render o.format).toUTF8 = .error fault := by
  obtain ⟨load, gate⟩ := passes
  cases h with
  | unloaded fault other =>
    rw [load] at other
    cases other
  | gated m' other strict problems =>
    rw [load] at other
    cases other
    simp [strict, problems] at gate
  | unwritten m' path fault other out write =>
    rw [load] at other
    cases other
    exact ⟨path, fault, out, write⟩

theorem Passes.not_blocked {m : Model} (passes : Passes fs files o m) (out : o.out = none) :
    ¬ Blocked fs files o := by
  intro blocked
  obtain ⟨path, fault, other, _⟩ := passes.of_blocked blocked
  rw [out] at other
  cases other

/-- What a run leaves that hands over a text: on standard output, or in the file that a path leads
to, with every other place as it was. -/
def Delivers (fs : FileSystem Place) (files : Files Place) (run : Run Place) (rendered : String) :
    Option String → Prop
  | none => run.output = rendered ∧ run.files = files
  | some path => run.output = "Wrote " ++ path ++ "\n" ∧
    fs.read run.files path = .ok rendered.toUTF8 ∧
    ∃ place, fs.target files path = .ok place ∧ run.files place = some rendered.toUTF8 ∧
      ∀ p, p ≠ place → run.files p = files p

/-- A run that fails leaves everything alone, and another one has printed or written. -/
theorem failed_or_finished (fs : FileSystem Place) (files : Files Place) (o : Options) :
    Blocked fs files o ∧ (ofOptions fs files o).exit = 1 ∧ (ofOptions fs files o).output = "" ∧
        (ofOptions fs files o).files = files ∨
      ¬ Blocked fs files o ∧ (ofOptions fs files o).exit = 0 ∧ ∃ m, Passes fs files o m ∧
        (fs.Lawful →
          Delivers fs files (ofOptions fs files o) ((Report.ofModel m).render o.format) o.out) := by
  have c := course fs files o
  generalize ofOptions fs files o = run at c ⊢
  cases c with
  | unloaded load => exact .inl ⟨.unloaded _ load, rfl, rfl, rfl⟩
  | gated load strict problems => exact .inl ⟨.gated _ load strict problems, rfl, rfl, rfl⟩
  | unwritten passes out write =>
    exact .inl ⟨.unwritten _ _ _ passes.1 out write, rfl, rfl, rfl⟩
  | printed passes out =>
    refine .inr ⟨passes.not_blocked out, rfl, _, passes, fun _ => ?_⟩
    rw [out]
    exact ⟨rfl, rfl⟩
  | written passes out write =>
    refine .inr ⟨?_, rfl, _, passes, fun lawful => ?_⟩
    · intro blocked
      obtain ⟨path, fault, other, fails⟩ := passes.of_blocked blocked
      rw [out] at other
      cases other
      rw [write] at fails
      cases fails
    · rw [out]
      exact ⟨rfl, lawful.read_of_write write, FileSystem.elsewhere_of_write write⟩

theorem exit_eq_one_iff : (ofOptions fs files o).exit = 1 ↔ Blocked fs files o := by
  rcases failed_or_finished fs files o with ⟨blocked, exit, _⟩ | ⟨free, exit, _⟩
  · exact iff_of_true exit blocked
  · exact iff_of_false (by rw [exit]; decide) free

theorem exit_eq_zero_iff : (ofOptions fs files o).exit = 0 ↔ ¬ Blocked fs files o := by
  rcases failed_or_finished fs files o with ⟨blocked, exit, _⟩ | ⟨free, exit, _⟩
  · exact iff_of_false (by rw [exit]; decide) (fun free => free blocked)
  · exact iff_of_true exit free

theorem untouched_of_blocked (h : Blocked fs files o) :
    (ofOptions fs files o).output = "" ∧ (ofOptions fs files o).files = files := by
  rcases failed_or_finished fs files o with ⟨_, _, untouched⟩ | ⟨free, _⟩
  · exact untouched
  · exact absurd h free

theorem passes_of_not_blocked (h : ¬ Blocked fs files o) : ∃ m, Passes fs files o m := by
  rcases failed_or_finished fs files o with ⟨blocked, _⟩ | ⟨_, _, m, passes, _⟩
  · exact absurd blocked h
  · exact ⟨m, passes⟩

theorem delivers_of_not_blocked (lawful : fs.Lawful) (h : ¬ Blocked fs files o) {m : Model}
    (load : (loading fs files o).outcome = .ok m) :
    Delivers fs files (ofOptions fs files o) ((Report.ofModel m).render o.format) o.out := by
  rcases failed_or_finished fs files o with ⟨blocked, _⟩ | ⟨_, _, m', ⟨load', _⟩, delivers⟩
  · exact absurd blocked h
  · rw [load] at load'
    cases load'
    exact delivers lawful

/-- The log depends on what is loaded and on how much is asked for, not on how the run ends. -/
theorem log_eq_logged (fs : FileSystem Place) (files : Files Place) (o : Options) :
    (ofOptions fs files o).log = logged fs files o := by
  have c := course fs files o
  generalize ofOptions fs files o = run at c ⊢
  cases c <;> rfl

theorem ofOptions_of_gated {m : Model} (load : (loading fs files o).outcome = .ok m)
    (strict : o.strict) (problems : (Report.ofModel m).hasProblems) :
    ofOptions fs files o =
      ⟨.failed (logged fs files o) (.strict (Report.ofModel m).totals.problems), files⟩ := by
  rw [ofOptions_eq, resolve_of_ok load, strict, problems, Bool.and_self, if_pos rfl,
    handingOver_error]

theorem not_blocked_of_printing {m : Model} (load : (loading fs files o).outcome = .ok m)
    (lenient : o.strict = false) (out : o.out = none) : ¬ Blocked fs files o := by
  have passes : Passes fs files o m := ⟨load, by rw [lenient, Bool.false_and]⟩
  exact passes.not_blocked out

theorem ofArguments_of_read {args : List String} (h : Arguments.read args = .ok o) :
    ofArguments fs files args = ofOptions fs files o := by
  unfold ofArguments Program.run
  rw [h]
  rfl

/-- A run fails exactly when the model cannot be loaded, strictness holds the report back or it
cannot be written. It then leaves nothing behind but its complaint; otherwise the whole report is
handed over and nothing else changes. When strictness holds the report back, the complaint counts
the problems in the very report that every other run on the same file hands over. -/
theorem all_or_nothing (lawful : fs.Lawful) (files : Files Place) {args : List String}
    (h : Arguments.read args = .ok o) :
    ((ofArguments fs files args).exit = 1 ↔ Blocked fs files o) ∧
    ((ofArguments fs files args).exit = 0 ↔ ¬ Blocked fs files o) ∧
    ((ofArguments fs files args).exit = 1 →
      (ofArguments fs files args).output = "" ∧ (ofArguments fs files args).files = files) ∧
    ((ofArguments fs files args).exit = 0 → ∃ m rendered, (loading fs files o).outcome = .ok m ∧
      (Report.ofModel m).RenderedAs o.format rendered ∧
      Delivers fs files (ofArguments fs files args) rendered o.out) ∧
    ∀ m, (loading fs files o).outcome = .ok m → o.strict → (Report.ofModel m).hasProblems →
      (ofArguments fs files args).errors =
        "Error: " ++ Decimal.text ((Report.ofModel m).rows.map (·.problems.length)).sum ++
          " directive type mismatch(es) found in strict mode" ∧
      ∀ args' o', Arguments.read args' = .ok o' → o'.model = o.model → o'.strict = false →
        (o'.out = none → (ofArguments fs files args').exit = 0) ∧
        ((ofArguments fs files args').exit = 0 → ∃ rendered,
          (Report.ofModel m).RenderedAs o'.format rendered ∧
          Delivers fs files (ofArguments fs files args') rendered o'.out) ∧
        (o'.verbose = o.verbose → o'.quiet = o.quiet →
          (ofArguments fs files args').log = (ofArguments fs files args).log) := by
  rw [ofArguments_of_read h]
  refine ⟨exit_eq_one_iff, exit_eq_zero_iff, ?_, ?_, ?_⟩
  · intro exit
    exact untouched_of_blocked (exit_eq_one_iff.mp exit)
  · intro exit
    have free := exit_eq_zero_iff.mp exit
    obtain ⟨m, load, -⟩ := passes_of_not_blocked free
    exact ⟨m, _, load, Report.renderedAs_render _ _, delivers_of_not_blocked lawful free load⟩
  · intro m load strict problems
    constructor
    · rw [ofOptions_of_gated load strict problems, ← Report.problems_eq_sum]
      simp [Result.failed, Failure.text, Failure.summary, Failure.cause?, String.append_assoc]
    · intro args' o' h' model lenient
      rw [ofArguments_of_read h']
      have load' : (loading fs files o').outcome = .ok m := by rw [loading_congr model, load]
      refine ⟨?_, ?_, ?_⟩
      · intro out
        exact exit_eq_zero_iff.mpr (not_blocked_of_printing load' lenient out)
      · intro exit
        exact ⟨_, Report.renderedAs_render _ _,
          delivers_of_not_blocked lawful (exit_eq_zero_iff.mp exit) load'⟩
      · intro verbose quiet
        rw [log_eq_logged, log_eq_logged, logged_congr model verbose quiet]

/-- A tree in which paths start from a folder below the root. -/
def sampleTree : FileTree :=
  ⟨[["home", "reports"]], ["home"]⟩

/-- A file in the folder that paths start from, which a model is loaded from. -/
def sampleFiles : Files (List String) :=
  Files.put (fun _ => none) ["home", "m.json"] Model.sample.document.text.toUTF8

theorem all_or_nothing_sample :
    let strict := ["resolve", "--model", "/home/m.json", "--strict"]
    let lenient := ["resolve", "--model", "/home/m.json", "-o", "../home/reports/r.json"]
    Arguments.read strict = .ok ⟨"/home/m.json", none, .json, true, false, false⟩ ∧
      (ofArguments sampleTree.fileSystem sampleFiles strict).exit = 1 ∧
      (ofArguments sampleTree.fileSystem sampleFiles strict).output = "" ∧
      (ofArguments sampleTree.fileSystem sampleFiles strict).errors =
        "Error: 1 directive type mismatch(es) found in strict mode" ∧
      (ofArguments sampleTree.fileSystem sampleFiles lenient).exit = 0 ∧
      (ofArguments sampleTree.fileSystem sampleFiles lenient).output =
        "Wrote " ++ "../home/reports/r.json" ++ "\n" ∧
      (ofArguments sampleTree.fileSystem sampleFiles lenient).files ["home", "reports", "r.json"] =
        some (Report.ofModel Model.sample).jsonText.toUTF8 := by
  intro strict lenient
  have asked : Arguments.read strict = .ok ⟨"/home/m.json", none, .json, true, false, false⟩ := rfl
  have asked' : Arguments.read lenient =
      .ok ⟨"/home/m.json", some "../home/reports/r.json", .json, false, false, false⟩ := rfl
  have load : (loading sampleTree.fileSystem sampleFiles
      ⟨"/home/m.json", none, .json, true, false, false⟩).outcome = .ok Model.sample :=
    Loading.ofFile_text Model.sample_wellFormed
  have problems : (Report.ofModel Model.sample).hasProblems := rfl
  have target : sampleTree.target sampleFiles "../home/reports/r.json" =
      .ok ["home", "reports", "r.json"] := rfl
  have free : ¬ Blocked sampleTree.fileSystem sampleFiles
      ⟨"/home/m.json", some "../home/reports/r.json", .json, false, false, false⟩ := by
    intro blocked
    have passes : Passes sampleTree.fileSystem sampleFiles
        ⟨"/home/m.json", some "../home/reports/r.json", .json, false, false, false⟩ Model.sample :=
      ⟨load, rfl⟩
    obtain ⟨path, fault, out, write⟩ := passes.of_blocked blocked
    cases out
    cases target.symm.trans (FileSystem.write_eq_error_iff.mp write)
  have result := all_or_nothing sampleTree.lawful sampleFiles asked
  have fails := result.1.mpr (.gated _ load rfl problems)
  obtain ⟨complaint, others⟩ := result.2.2.2.2 _ load rfl problems
  have succeeds := (all_or_nothing sampleTree.lawful sampleFiles asked').2.1.mpr free
  obtain ⟨-, delivers, -⟩ := others lenient _ asked' rfl rfl
  obtain ⟨_, ⟨⟩, output, -, place, found, holds, -⟩ := delivers succeeds
  cases target.symm.trans found
  exact ⟨asked, fails, (result.2.2.1 fails).1, complaint, succeeds, output, holds⟩

end Run

end ModelDirectives
