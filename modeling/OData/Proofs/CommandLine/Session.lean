/-
Commands on a tree of files.

Commands read what is there.  Only one of them changes anything: it makes a directory, with those
around it, and writes a definition into it unless there is one already.  So commands may be carried
out one after the other, and whatever stood in the tree is left as it was, as long as the directory
is not reached by going back: behind a directory that is made on the way there may be a definition
that could not be seen before.

* `CommandLine.Command.writeSample_cases` — what is written, and when;
* `CommandLine.Command.run_grows`, `CommandLine.afterAll_grows` — **commands change nothing that is
  there**;
* `CommandLine.onFile_afterAll_init` — **a definition that was written is there for all commands
  that follow**;
* `CommandLine.init_overwrites` — the exception.
-/

import OData.CommandLine.Run
import OData.Proofs.CommandLine.Tree

set_option relaxedAutoImplicit false
set_option autoImplicit false

namespace OData.CommandLine

open FileTree

/-! ### Names of paths -/

theorem names_append (a b : List Char) :
    names (String.ofList (a ++ '/' :: b)) = names (String.ofList a) ++ names (String.ofList b) := by
  simp only [names, String.toList_ofList, List.splitOn_append_cons_self, List.map_append]

/-- The path of a name in a directory has that name behind names of the directory. -/
theorem names_joinPath (directory : String) {name : String} (hname : '/' ∉ name.toList) :
    ∃ around, names (joinPath directory name) = around ++ [name] ∧
      ∀ other ∈ around, other ∈ names directory := by
  have hsingle : names name = [name] := by
    rw [names, List.splitOn_eq_singleton hname, List.map_singleton, String.ofList_toList]
  rw [joinPath]
  split
  · next hends =>
    rw [Bool.or_eq_true, beq_iff_eq, String.isEmpty_iff, List.getLast?_eq_some_iff] at hends
    rcases hends with rfl | ⟨front, hfront⟩
    · refine ⟨[], ?_, nofun⟩
      rw [String.empty_append, hsingle, List.nil_append]
    · have hdirectory : directory = String.ofList (front ++ '/' :: []) := by
        rw [← hfront, String.ofList_toList]
      have hpath : directory ++ name = String.ofList (front ++ '/' :: name.toList) := by
        rw [hdirectory]
        simp [← String.toList_inj]
      refine ⟨names (String.ofList front), ?_, fun other hother => ?_⟩
      · rw [hpath, names_append, String.ofList_toList, hsingle]
      · rw [hdirectory, names_append]
        exact List.mem_append_left _ hother
  · refine ⟨names directory, ?_, fun _ h => h⟩
    have hpath : directory ++ "/" ++ name
        = String.ofList (directory.toList ++ '/' :: name.toList) := by
      simp [← String.toList_inj]
    rw [hpath, names_append, String.ofList_toList, String.ofList_toList, hsingle]

/-! ### Commands -/

namespace Command

/-- What writing the sample does: it makes directories, and if it does not fail, it writes a file that
was not found before. -/
theorem writeSample_cases {tree after : FileTree} {directory : String} {outcome : Outcome}
    (h : (writeSample access directory).run tree = (outcome, after)) :
    ∃ made, tree.Grows made ∧
      (outcome.result ≠ .ok () ∧ after = made ∨
        outcome.result = .ok () ∧ tree.find? (joinPath directory defaultFile) = none ∧
          made.write (joinPath directory defaultFile) Definition.sampleText = .ok after) := by
  simp only [writeSample, StateT.run_bind, run_isThere, pure_bind] at h
  cases hfound : tree.find? (joinPath directory defaultFile) with
  | some entry =>
      rw [hfound] at h
      obtain ⟨rfl, rfl⟩ := Prod.mk.inj h
      exact ⟨_, .refl _, .inl ⟨nofun, rfl⟩⟩
  | none =>
      obtain ⟨answer, made, hmade, hgrows⟩ := exists_run_makeDirectories tree directory
      refine ⟨made, hgrows, ?_⟩
      simp only [hfound, Option.isSome_none, Bool.false_eq_true, if_false, StateT.run_bind, hmade,
        pure_bind] at h
      cases answer with
      | error fault =>
          obtain ⟨rfl, rfl⟩ := Prod.mk.inj h
          exact .inl ⟨nofun, rfl⟩
      | ok =>
          simp only [StateT.run_bind, run_write, pure_bind] at h
          cases hwrite : made.write (joinPath directory defaultFile) Definition.sampleText with
          | error fault =>
              rw [hwrite] at h
              obtain ⟨rfl, rfl⟩ := Prod.mk.inj h
              exact .inl ⟨nofun, rfl⟩
          | ok written =>
              rw [hwrite] at h
              obtain ⟨rfl, rfl⟩ := Prod.mk.inj h
              exact .inr ⟨rfl, rfl, rfl⟩

/-- Reading a definition changes nothing. -/
theorem run_onFile (tree : FileTree) (command : Command) (path : String) :
    (onFile access command path).run tree
      = (match tree.read path with
          | .error fault => .failed (.notRead path fault)
          | .ok text => .ofExcept (command.respond text), tree) := by
  simp only [onFile, StateT.run_bind, run_read, pure_bind]
  cases tree.read path <;> rfl

/-- **A command changes nothing that is there**, unless it initializes a directory that is reached by
going back. -/
theorem run_grows {tree after : FileTree} (hgrounded : tree.IsGrounded) {command : Command}
    (hback : ∀ directory, command = .init directory → ".." ∉ names directory) {outcome : Outcome}
    (h : (command.run access).run tree = (outcome, after)) : tree.Grows after := by
  cases command with
  | init directory =>
      obtain ⟨made, hmade, ⟨-, rfl⟩ | ⟨-, hfree, hwrite⟩⟩ := writeSample_cases h
      · exact hmade
      · obtain ⟨around, hnames, haround⟩ :=
          @names_joinPath directory defaultFile (by decide)
        have hpath : ".." ∉ names (joinPath directory defaultFile) := by
          rw [hnames, List.mem_append, not_or]
          exact ⟨fun hmem => hback directory rfl (haround _ hmem), by decide⟩
        exact ⟨extends_of_write hgrounded hmade.keeps hnames hpath (by decide) hfree hwrite,
          fun _ => isGrounded_of_write hwrite (hmade.grounded hgrounded)⟩
  | validate file | metadata file tagOnly | get file url =>
      rw [run, run_onFile] at h
      obtain ⟨-, rfl⟩ := Prod.mk.inj h
      exact .refl _
  | schema | completions shell =>
      obtain ⟨-, rfl⟩ := Prod.mk.inj h
      exact .refl _

end Command

/-! ### Several commands -/

/-- A tree after several commands. -/
def afterAll (tree : FileTree) (commands : List Command) : FileTree :=
  commands.foldl (fun tree command => ((command.run access).run tree).2) tree

/-- **Commands change nothing that is there**, one after the other. -/
theorem afterAll_grows {tree : FileTree} (hgrounded : tree.IsGrounded) {commands : List Command}
    (hback : ∀ directory, .init directory ∈ commands → ".." ∉ names directory) :
    tree.Grows (afterAll tree commands) := by
  induction commands generalizing tree with
  | nil => exact .refl tree
  | cons command commands ih =>
      have hfirst : tree.Grows ((command.run access).run tree).2 :=
        Command.run_grows hgrounded (fun directory heq => hback directory (heq ▸ List.mem_cons_self))
          rfl
      exact hfirst.trans (ih (hfirst.grounded hgrounded) fun directory hmem =>
        hback directory (List.mem_cons_of_mem _ hmem))

/-- Whatever commands are carried out, a text that can be read stays what it is. -/
theorem read_afterAll {tree : FileTree} (hgrounded : tree.IsGrounded) {commands : List Command}
    (hback : ∀ directory, .init directory ∈ commands → ".." ∉ names directory) {path text : String}
    (hread : tree.read path = .ok text) : (afterAll tree commands).read path = .ok text :=
  read_of_extends (afterAll_grows hgrounded hback).keeps hread

/-- **A definition that was written is there for all commands that follow.** -/
theorem onFile_afterAll_init {tree after : FileTree} (hgrounded : tree.IsGrounded)
    {directory : String} {outcome : Outcome}
    (h : ((Command.init directory).run access).run tree = (outcome, after))
    (hdone : outcome.result = .ok ()) {commands : List Command}
    (hback : ∀ directory, .init directory ∈ commands → ".." ∉ names directory) (command : Command) :
    (command.onFile access (joinPath directory Command.defaultFile)).run (afterAll after commands)
      = (.ofExcept (command.respond Definition.sampleText), afterAll after commands) := by
  obtain ⟨made, hmade, ⟨hfailed, -⟩ | ⟨-, -, hwrite⟩⟩ := Command.writeSample_cases h
  · exact absurd hdone hfailed
  · have hafter := isGrounded_of_write hwrite (hmade.grounded hgrounded)
    rw [Command.run_onFile, read_afterAll hafter hback (read_of_write hwrite)]

-- Directories that are not there are made.
example : (((Command.init "shops/books").run access).run {}).1.result.toOption = some () := by
  decide +kernel

/-- Going back, a definition is found that was not found before, and it is overwritten. -/
theorem init_overwrites :
    let tree := ofFiles [("service.yaml", "version: \"1.0\"")]
    let after := (((Command.init "new/..").run access).run tree).2
    tree.IsGrounded ∧ tree.find? "service.yaml" = some (.file "version: \"1.0\"") ∧
      after.find? "service.yaml" ≠ some (.file "version: \"1.0\"") :=
  ⟨isGrounded_ofFiles _, by decide +kernel, by decide +kernel⟩

end OData.CommandLine
