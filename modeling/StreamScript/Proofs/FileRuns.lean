import StreamScript.CommandLine

/-! # Runs over files

A command is carried out on one file after the other, and what it does with a file does not depend
on the files before: a run over files is the runs over the single files, one after the other
(`overFiles_eq_inTurn`).  So the run over two lists of files is made of the runs over each
(`files_are_independent`).  What `parse` and `check` do with a file is told by one `Verdict`.

A word that is no command shows only when a file has been read.  Then the run ends with exit code 2,
but if no file can be read it ends with exit code 1 and says nothing of the word
(`run_of_unknown_word`). -/

namespace StreamScript.CommandLine

variable {read : String → Except ReadError String} {word : String} {paths xs ys : List String}
  {c : Command} {o x : Outcome}

/-! ### One run after another -/

namespace Outcome

/-- One run, and then another whose outputs follow.  A failure of the second is one of both. -/
def andThen (o x : Outcome) : Outcome :=
  ⟨if x.exit = 0 then o.exit else x.exit, o.stdout ++ x.stdout, o.stderr ++ x.stderr⟩

@[simp] theorem stdout_andThen (o x : Outcome) : (o.andThen x).stdout = o.stdout ++ x.stdout := rfl

@[simp] theorem stderr_andThen (o x : Outcome) : (o.andThen x).stderr = o.stderr ++ x.stderr := rfl

@[simp] theorem andThen_clean (o : Outcome) : o.andThen clean = o := by
  simp [andThen, clean]

@[simp] theorem clean_andThen (o : Outcome) : clean.andThen o = o := by
  cases o with
  | mk exit stdout stderr => simp +contextual [andThen, clean, eq_comm]

theorem andThen_assoc (o x y : Outcome) : (o.andThen x).andThen y = o.andThen (x.andThen y) := by
  simp only [andThen, String.append_assoc]
  split <;> simp_all

theorem print_eq (o : Outcome) (text : String) : o.print text = o.andThen (clean.print text) := by
  simp [print, andThen, clean]

theorem note_eq (o : Outcome) (text : String) : o.note text = o.andThen (clean.note text) := by
  simp [note, andThen, clean]

theorem fail_eq (o : Outcome) (path reason : String) :
    o.fail path reason = o.andThen (clean.fail path reason) := by
  simp [fail, note, andThen, clean]

end Outcome

open Outcome

theorem Command.treat_eq (c : Command) (o : Outcome) (path source : String) :
    c.treat o path source = o.andThen (c.treat clean path source) := by
  cases c with
  | tokens => exact print_eq o _
  | parse =>
      simp only [treat]
      split
      · exact print_eq o _
      · exact fail_eq o _ _
  | check =>
      simp only [treat]
      split
      · exact note_eq o _
      · exact fail_eq o _ _

/-- The runs in a list, one after the other. -/
def inTurn (runs : List Outcome) : Outcome := runs.foldr andThen clean

@[simp] theorem inTurn_cons (x : Outcome) (runs : List Outcome) :
    inTurn (x :: runs) = x.andThen (inTurn runs) := rfl

theorem inTurn_append (runs more : List Outcome) :
    inTurn (runs ++ more) = (inTurn runs).andThen (inTurn more) := by
  induction runs with
  | nil => exact (clean_andThen _).symm
  | cons x runs ih => rw [List.cons_append, inTurn_cons, inTurn_cons, ih, andThen_assoc]

theorem stdout_inTurn (runs : List Outcome) :
    (inTurn runs).stdout = String.join (runs.map Outcome.stdout) := by
  induction runs with
  | nil => rfl
  | cons x runs ih => simp [ih]

theorem stderr_inTurn (runs : List Outcome) :
    (inTurn runs).stderr = String.join (runs.map Outcome.stderr) := by
  induction runs with
  | nil => rfl
  | cons x runs ih => simp [ih]

/-- The exit code only says whether the run has failed. -/
def Plain (o : Outcome) : Prop := o.exit = 0 ∨ o.exit = 1

theorem Plain.andThen_eq (ho : Plain o) (hx : Plain x) :
    o.andThen x = ⟨if o.exit = 1 ∨ x.exit = 1 then 1 else 0, o.stdout ++ x.stdout,
      o.stderr ++ x.stderr⟩ := by
  rcases ho with ho | ho <;> rcases hx with hx | hx <;> simp [andThen, ho, hx]

theorem Plain.andThen (ho : Plain o) (hx : Plain x) : Plain (o.andThen x) := by
  rw [ho.andThen_eq hx]
  unfold Plain
  split <;> simp

theorem exit_inTurn {f : String → Outcome} (h : ∀ path, Plain (f path)) (paths : List String) :
    Plain (inTurn (paths.map f)) ∧
      ((inTurn (paths.map f)).exit = 1 ↔ ∃ path ∈ paths, (f path).exit = 1) := by
  induction paths with
  | nil => exact ⟨.inl rfl, by simp [inTurn, clean]⟩
  | cons path paths ih =>
      obtain ⟨hplain, hexit⟩ := ih
      refine ⟨(h path).andThen hplain, ?_⟩
      rw [List.map_cons, inTurn_cons, (h path).andThen_eq hplain]
      by_cases hpath : (f path).exit = 1 <;> simp [hpath, hexit]

/-- What a command does with one file. -/
def Command.single (read : String → Except ReadError String) (c : Command) (path : String) :
    Outcome :=
  match read path with
  | .ok source => c.treat clean path source
  | .error e => clean.fail path e.message

theorem overFiles_eq_inTurn (hc : Command.ofWord? word = some c) (o : Outcome)
    (paths : List String) :
    overFiles read word o paths = o.andThen (inTurn (paths.map (c.single read))) := by
  induction paths generalizing o with
  | nil => exact (andThen_clean o).symm
  | cons path paths ih =>
      rw [List.map_cons, inTurn_cons, ← andThen_assoc, ← ih, overFiles, Command.single]
      cases hread : read path with
      | error e => rw [← fail_eq]
      | ok source => simp only [hc, ← Command.treat_eq]

/-- A command word with a list of files makes a run over the files. -/
theorem run_eq_overFiles (hword : word ∉ ["--help", "-h", "demo"]) (hpaths : paths ≠ []) :
    run read (word :: paths) = overFiles read word clean paths := by
  simp only [List.mem_cons, List.not_mem_nil, or_false, not_or] at hword
  simp [run, Request.ofArgs, hword, hpaths, Request.fulfil]

theorem run_eq_inTurn (hc : Command.ofWord? word = some c) (hpaths : paths ≠ []) :
    run read (word :: paths) = inTurn (paths.map (c.single read)) := by
  have hword : word ∉ ["--help", "-h", "demo"] := by
    intro h
    simp only [List.mem_cons, List.not_mem_nil, or_false] at h
    rcases h with rfl | rfl | rfl <;> cases hc
  rw [run_eq_overFiles hword hpaths, overFiles_eq_inTurn hc, clean_andThen]

/-! ### One file -/

/-- What can be said of a file. -/
inductive Verdict where
  | unreadable (error : ReadError)
  | invalid (error : ParseError)
  | valid (program : Program)

/-- The verdict on the file at a path. -/
def verdict (read : String → Except ReadError String) (path : String) : Verdict :=
  match read path with
  | .error e => .unreadable e
  | .ok source =>
    match parseSource source with
    | .ok program => .valid program
    | .error e => .invalid e

namespace Verdict

/-- The program of a file that has one. -/
def program? : Verdict → Option Program
  | valid program => some program
  | unreadable _ | invalid _ => none

/-- The exit code where the file should have a program. -/
def exit : Verdict → Nat
  | valid _ => 0
  | unreadable _ | invalid _ => 1

/-- The line that tells the verdict on the file at a path. -/
def report (path : String) : Verdict → String
  | unreadable e => s!"{path}: {e.message}\n"
  | invalid e => s!"{path}: {e.message}\n"
  | valid program => s!"{path}: valid ({program.summary})\n"

end Verdict

/-- A run over one file fails if the file cannot be read, or if the command needs its program and
it has none. -/
theorem exit_single (read : String → Except ReadError String) (c : Command) (path : String) :
    Plain (c.single read path) ∧
      ((c.single read path).exit = 1 ↔ (∃ e, read path = .error e) ∨
        c ≠ .tokens ∧ ∃ source e, read path = .ok source ∧ parseSource source = .error e) := by
  unfold Command.single
  cases read path with
  | error e => simp [Plain, fail]
  | ok source =>
      cases c with
      | tokens => simp [Plain, Command.treat, print, clean]
      | parse => cases h : parseSource source <;> simp [Plain, Command.treat, h, print, fail, clean]
      | check => cases h : parseSource source <;> simp [Plain, Command.treat, h, note, fail, clean]

theorem single_check (read : String → Except ReadError String) (path : String) :
    Command.check.single read path =
      ⟨(verdict read path).exit, "", (verdict read path).report path⟩ := by
  unfold Command.single verdict
  cases read path with
  | error e => simp [fail, note, clean, Verdict.exit, Verdict.report]
  | ok source =>
      cases h : parseSource source <;>
        simp [Command.treat, h, note, fail, clean, Verdict.exit, Verdict.report]

/-- `parse` follows the same verdict, but of a file with a program it says nothing and prints the
tree. -/
theorem single_parse (read : String → Except ReadError String) (path : String) :
    Command.parse.single read path =
      ⟨(verdict read path).exit, ((verdict read path).program?.map Program.treeText).getD "",
        if (verdict read path).program?.isNone then (verdict read path).report path else ""⟩ := by
  unfold Command.single verdict
  cases read path with
  | error e => simp [fail, note, clean, Verdict.exit, Verdict.report, Verdict.program?]
  | ok source =>
      cases h : parseSource source <;>
        simp [Command.treat, h, print, note, fail, clean, Verdict.exit, Verdict.report,
          Verdict.program?]

/-! ### All files -/

theorem join_map_ite (f : String → String) (p : String → Bool) (paths : List String) :
    String.join (paths.map fun path => if p path then f path else "") =
      String.join ((paths.filter p).map f) := by
  induction paths with
  | nil => rfl
  | cons path paths ih => cases hp : p path <;> simp [hp, ih]

theorem join_map_getD (f : String → Option Program) (paths : List String) :
    String.join (paths.map fun path => ((f path).map Program.treeText).getD "") =
      String.join ((paths.filterMap f).map Program.treeText) := by
  induction paths with
  | nil => rfl
  | cons path paths ih => cases hp : f path <;> simp [hp, ih]

theorem join_map_empty (paths : List String) : String.join (paths.map fun _ => "") = "" := by
  induction paths with
  | nil => rfl
  | cons path paths ih => simpa using ih

theorem exit_run (read : String → Except ReadError String) (hc : Command.ofWord? word = some c)
    (hpaths : paths ≠ []) :
    Plain (run read (word :: paths)) ∧
      ((run read (word :: paths)).exit = 1 ↔ ∃ path ∈ paths, (c.single read path).exit = 1) := by
  rw [run_eq_inTurn hc hpaths]
  exact exit_inTurn (fun path => (exit_single read c path).1) paths

/-- A run over two lists of files is the run over the first and then that over the second. -/
theorem run_append (hc : Command.ofWord? word = some c) (hxs : xs ≠ []) (hys : ys ≠ []) :
    run read (word :: (xs ++ ys)) =
      (run read (word :: xs)).andThen (run read (word :: ys)) := by
  have hall : xs ++ ys ≠ [] := List.append_ne_nil_of_left_ne_nil hxs ys
  rw [run_eq_inTurn hc hall, run_eq_inTurn hc hxs, run_eq_inTurn hc hys, List.map_append,
    inTurn_append]

theorem run_check (hpaths : paths ≠ []) :
    (run read ("check" :: paths)).stdout = "" ∧
      (run read ("check" :: paths)).stderr =
        String.join (paths.map fun path => (verdict read path).report path) := by
  have hc : Command.ofWord? "check" = some .check := by decide
  rw [run_eq_inTurn hc hpaths, stdout_inTurn, stderr_inTurn, List.map_map, List.map_map]
  simp only [Function.comp_def, single_check, and_true]
  exact join_map_empty paths

theorem run_parse (hpaths : paths ≠ []) :
    (run read ("parse" :: paths)).stdout =
        String.join ((paths.filterMap fun path => (verdict read path).program?).map
          Program.treeText) ∧
      (run read ("parse" :: paths)).stderr =
        String.join ((paths.filter fun path => (verdict read path).program?.isNone).map fun path =>
          (verdict read path).report path) := by
  have hc : Command.ofWord? "parse" = some .parse := by decide
  rw [run_eq_inTurn hc hpaths, stdout_inTurn, stderr_inTurn, List.map_map, List.map_map]
  simp only [Function.comp_def, single_parse]
  exact ⟨join_map_getD _ paths, join_map_ite _ _ paths⟩

theorem exit_run_parse (paths : List String) :
    (run read ("parse" :: paths)).exit = (run read ("check" :: paths)).exit := by
  by_cases hpaths : paths = []
  · subst hpaths
    rfl
  have hp : Command.ofWord? "parse" = some .parse := by decide
  have hc : Command.ofWord? "check" = some .check := by decide
  obtain ⟨hparse, hparse'⟩ := exit_run read hp hpaths
  obtain ⟨hcheck, hcheck'⟩ := exit_run read hc hpaths
  simp only [single_parse] at hparse'
  simp only [single_check, ← hparse'] at hcheck'
  rcases hparse with h | h <;> rcases hcheck with h' | h' <;> simp_all

theorem exists_ofWord?_of_mem (h : word ∈ ["tokens", "parse", "check"]) :
    ∃ c, Command.ofWord? word = some c ∧ (c ≠ .tokens ↔ word ≠ "tokens") := by
  simp only [List.mem_cons, List.not_mem_nil, or_false] at h
  rcases h with rfl | rfl | rfl
  · exact ⟨.tokens, by decide⟩
  · exact ⟨.parse, by decide⟩
  · exact ⟨.check, by decide⟩

/-- A command treats each of its files alone: the outputs of a run over files follow each other, and
it fails if it fails on one.  `parse` and `check` fail on the same files, those that cannot be read
or have no program; `check` says of each file what holds of it, `parse` says so of these and prints
the trees of the others. -/
theorem files_are_independent (read : String → Except ReadError String) :
    (∀ word ∈ ["tokens", "parse", "check"], ∀ xs ys : List String, xs ≠ [] → ys ≠ [] →
      run read (word :: (xs ++ ys)) =
        ⟨if (run read (word :: xs)).exit = 1 ∨ (run read (word :: ys)).exit = 1 then 1 else 0,
          (run read (word :: xs)).stdout ++ (run read (word :: ys)).stdout,
          (run read (word :: xs)).stderr ++ (run read (word :: ys)).stderr⟩) ∧
    (∀ word ∈ ["tokens", "parse", "check"], ∀ paths : List String, paths ≠ [] →
      ((run read (word :: paths)).exit = 0 ∨ (run read (word :: paths)).exit = 1) ∧
      ((run read (word :: paths)).exit = 1 ↔ ∃ path ∈ paths, (∃ e, read path = .error e) ∨
        word ≠ "tokens" ∧ ∃ source e, read path = .ok source ∧ parseSource source = .error e)) ∧
    (∀ paths : List String,
      (run read ("parse" :: paths)).exit = (run read ("check" :: paths)).exit) ∧
    ∀ paths : List String, paths ≠ [] →
      (run read ("check" :: paths)).stderr =
        String.join (paths.map fun path => (verdict read path).report path) ∧
      (run read ("parse" :: paths)).stderr =
        String.join ((paths.filter fun path => (verdict read path).program?.isNone).map fun path =>
          (verdict read path).report path) ∧
      (run read ("check" :: paths)).stdout = "" ∧
      (run read ("parse" :: paths)).stdout =
        String.join ((paths.filterMap fun path => (verdict read path).program?).map
          Program.treeText) := by
  refine ⟨fun word hword xs ys hxs hys => ?_, fun word hword paths hpaths => ?_,
    fun paths => exit_run_parse paths, fun paths hpaths => ?_⟩
  · obtain ⟨c, hc, -⟩ := exists_ofWord?_of_mem hword
    have hxrun := (exit_run read hc hxs).1
    have hyrun := (exit_run read hc hys).1
    rw [run_append hc hxs hys, hxrun.andThen_eq hyrun]
  · obtain ⟨c, hc, htokens⟩ := exists_ofWord?_of_mem hword
    refine ⟨(exit_run read hc hpaths).1, ?_⟩
    rw [(exit_run read hc hpaths).2, ← htokens]
    simp only [(exit_single read c _).2]
  · exact ⟨(run_check hpaths).2, (run_parse hpaths).2, (run_check hpaths).1, (run_parse hpaths).1⟩

/-- Three files: one with a program, one with half a declaration, and one that is not there. -/
def threeFiles : String → Except ReadError String
  | "good" => .ok "int a;"
  | "half" => .ok "int"
  | _ => .error .notFound

theorem files_are_independent_threeFiles :
    ("parse" ∈ ["tokens", "parse", "check"] ∧ ["gone", "good"] ≠ [] ∧ ["half", "good"] ≠ []) ∧
      run threeFiles ["parse", "gone", "good", "half", "good"] =
        ⟨1, "Program\n  Declaration int a\nProgram\n  Declaration int a\n",
          "gone: No such file or directory (os error 2)\n" ++
            "half: Expected identifier in variable declaration at line 1.\n"⟩ ∧
      (run threeFiles ["check", "half", "good"]).exit = 1 ∧
      (run threeFiles ["check", "half", "good"]).stdout = "" := by
  have hword : "parse" ∈ ["tokens", "parse", "check"] := by decide
  have hxs : ["gone", "good"] ≠ [] := by decide
  have hys : ["half", "good"] ≠ [] := by decide
  obtain ⟨happend, -, hexit, houtputs⟩ := files_are_independent threeFiles
  have hxrun : run threeFiles ["parse", "gone", "good"] =
      ⟨1, "Program\n  Declaration int a\n", "gone: No such file or directory (os error 2)\n"⟩ := by
    decide +kernel
  have hyrun : run threeFiles ["parse", "half", "good"] =
      ⟨1, "Program\n  Declaration int a\n",
        "half: Expected identifier in variable declaration at line 1.\n"⟩ := by
    decide +kernel
  have hall := happend "parse" hword _ _ hxs hys
  rw [hxrun, hyrun] at hall
  have hexit := hexit ["half", "good"]
  rw [hyrun] at hexit
  obtain ⟨-, -, hstdout, -⟩ := houtputs _ hys
  exact ⟨⟨hword, hxs, hys⟩, hall, hexit.symm, hstdout⟩

/-! ### Words that are no command -/

/-- A word that is no command adds nothing to the first output.  The run ends when a file has been
read, and fails if none can be. -/
theorem overFiles_of_unknown (read : String → Except ReadError String)
    (hc : Command.ofWord? word = none) (o : Outcome) (paths : List String) :
    (overFiles read word o paths).stdout = o.stdout ∧
      ((∃ path ∈ paths, ∃ source, read path = .ok source) →
        (overFiles read word o paths).exit = 2) ∧
      ((∀ path ∈ paths, ∃ e, read path = .error e) →
        (overFiles read word o paths).exit = if paths = [] then o.exit else 1) := by
  induction paths generalizing o with
  | nil => simp [overFiles]
  | cons path paths ih =>
      rw [overFiles]
      cases hread : read path with
      | ok source => simp [hc, note, hread]
      | error e =>
          obtain ⟨hstdout, hreadable, hunreadable⟩ := ih (o.fail path e.message)
          refine ⟨hstdout, fun h => hreadable ?_, fun h => ?_⟩
          · simpa [hread] using h
          · rw [hunreadable (List.forall_mem_cons.1 h).2, if_neg (List.cons_ne_nil path paths)]
            split <;> rfl

/-- The run with a word that is no command writes nothing to the first output.  It ends with exit
code 2 if there is no file or if one can be read, and else with exit code 1. -/
theorem run_of_unknown_word (read : String → Except ReadError String)
    (hword : word ∉ ["--help", "-h", "demo", "tokens", "parse", "check"]) (paths : List String) :
    (run read (word :: paths)).stdout = "" ∧
      ((paths = [] ∨ ∃ path ∈ paths, ∃ source, read path = .ok source) →
        (run read (word :: paths)).exit = 2) ∧
      ((paths ≠ [] ∧ ∀ path ∈ paths, ∃ e, read path = .error e) →
        (run read (word :: paths)).exit = 1) := by
  simp only [List.mem_cons, List.not_mem_nil, or_false, not_or] at hword
  obtain ⟨hhelp, hh, hdemo, htokens, hparse, hcheck⟩ := hword
  have hc : Command.ofWord? word = none := by
    simp [Command.ofWord?, htokens, hparse, hcheck]
  by_cases hpaths : paths = []
  · subst hpaths
    simp [run, Request.ofArgs, hhelp, hh, hdemo, Request.fulfil]
  · obtain ⟨hstdout, hreadable, hunreadable⟩ := overFiles_of_unknown read hc clean paths
    rw [run_eq_overFiles (by simp [hhelp, hh, hdemo]) hpaths]
    refine ⟨hstdout, fun h => hreadable (h.resolve_left hpaths), fun h => ?_⟩
    rw [hunreadable h.2, if_neg hpaths]

/-- Of three runs with a word that is no command, in the first no file can be read, and in the second
the second one can; the third has no files. -/
theorem run_of_unknown_word_bogus :
    "bogus" ∉ ["--help", "-h", "demo", "tokens", "parse", "check"] ∧
      (run threeFiles ["bogus", "gone"]).exit = 1 ∧
      (run threeFiles ["bogus", "gone", "half"]).exit = 2 ∧
      (run threeFiles ["bogus"]).exit = 2 := by
  have hword : "bogus" ∉ ["--help", "-h", "demo", "tokens", "parse", "check"] := by decide
  obtain ⟨-, -, hfails⟩ := run_of_unknown_word threeFiles hword ["gone"]
  obtain ⟨-, hends, -⟩ := run_of_unknown_word threeFiles hword ["gone", "half"]
  obtain ⟨-, hnone, -⟩ := run_of_unknown_word threeFiles hword []
  refine ⟨hword, hfails ⟨by decide, ?_⟩, hends (.inr ⟨"half", by decide, "int", rfl⟩),
    hnone (.inl rfl)⟩
  simp [threeFiles]

/-- A word that is no command does not always lead to exit code 2: where the only file is not there,
nothing is said of the word. -/
theorem run_bogus_gone :
    "bogus" ∉ ["--help", "-h", "demo", "tokens", "parse", "check"] ∧
      run threeFiles ["bogus", "gone"] =
        ⟨1, "", "gone: No such file or directory (os error 2)\n"⟩ := by
  decide +kernel

end StreamScript.CommandLine
