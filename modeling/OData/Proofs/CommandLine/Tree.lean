/-
What happens to a tree of files.

Places are walked to step by step, and every step begins in a directory.  So a path that leads
somewhere still does when a tree has grown.  The other way round there is an exception: a path that
goes back may lead through a directory that was not there before.  A path that does not go back only
leads through the places around its end, and these are directories as soon as anything stands there.

Main definitions:

* `CommandLine.FileTree.Leads` — where some names lead to from a place;
* `CommandLine.FileTree.IsGrounded` — what stands in a tree stands in directories;
* `CommandLine.FileTree.Grows` — a tree keeps what stands in it, and stays grounded;
* `CommandLine.FileTree.OnlyGrows` — actions that make trees grow.

Main results:

* `CommandLine.FileTree.walk_of_directories`, `FileTree.walk_of_grounded` — where a path leads to when
  a tree has grown, and where it led to before;
* `CommandLine.FileTree.read_of_write` — **what is written is read**;
* `CommandLine.FileTree.extends_of_write` — when writing leaves everything else as it was;
* `CommandLine.FileTree.onlyGrows_makeDirectories` — **making directories changes nothing else**;
* `CommandLine.FileTree.isGrounded_ofFiles` — the tree of some files is grounded.
-/

import OData.CommandLine.FileTree
import OData.Yaml.Problem

set_option relaxedAutoImplicit false
set_option autoImplicit false

namespace OData.CommandLine

open Yaml (bind_eq_ok pure_eq_ok)

namespace FileTree

/-! ### Places -/

theorem isAround_cons {name : String} {place : List String} (h : isAround (name :: place) = true) :
    isAround place = true := by
  rw [isAround, List.all_cons, Bool.and_eq_true] at h
  exact h.2

theorem stands?_of_isAround (tree : FileTree) {place : List String} (h : isAround place = true) :
    tree.stands? place = some .directory := by
  rw [stands?, if_pos h]

theorem isAround_of_ne_directory {tree : FileTree} {place : List String}
    (h : tree.stands? place ≠ some .directory) : isAround place = false := by
  cases haround : isAround place with
  | false => rfl
  | true => exact absurd (stands?_of_isAround tree haround) h

/-- What stands at the places of a tree once something is put at one of them. -/
theorem stands?_put (tree : FileTree) {place : List String} (h : isAround place = false)
    (entry : Entry) (other : List String) :
    (tree.put place entry).stands? other = if other = place then some entry else tree.stands? other := by
  rw [stands?, stands?, put]
  by_cases hother : other = place
  · subst hother
    rw [if_neg (by simp [h]), if_pos rfl, List.lookup_cons_self]
  · have hne : (other == place) = false := by simpa using hother
    rw [if_neg hother, List.lookup_cons, hne]

theorem directoryAt_eq_ok_iff {tree : FileTree} {place : List String} :
    tree.directoryAt place = .ok () ↔ tree.stands? place = some .directory := by
  rw [directoryAt]
  split <;> simp_all

/-- What stands in a tree stands in directories. -/
def IsGrounded (tree : FileTree) : Prop :=
  ∀ name place entry, tree.stands? (name :: place) = some entry →
    tree.stands? place = some .directory

/-- Everything that stands in a tree stands in another one too. -/
def Extends (tree tree' : FileTree) : Prop :=
  ∀ place entry, tree.stands? place = some entry → tree'.stands? place = some entry

/-- A tree keeps everything that stands in it, and what is new stands in directories as well. -/
structure Grows (tree after : FileTree) : Prop where
  keeps : tree.Extends after
  grounded : tree.IsGrounded → after.IsGrounded

namespace Grows

theorem refl (tree : FileTree) : tree.Grows tree := ⟨fun _ _ h => h, id⟩

theorem trans {first second third : FileTree} (h : first.Grows second) (h' : second.Grows third) :
    first.Grows third :=
  ⟨fun place entry hentry => h'.keeps place entry (h.keeps place entry hentry),
    fun hgrounded => h'.grounded (h.grounded hgrounded)⟩

end Grows

/-- The places around a place are directories. -/
theorem IsGrounded.directory_of_suffix {tree : FileTree} (h : tree.IsGrounded)
    {place : List String} {entry : Entry} {name : String}
    (hentry : tree.stands? (name :: place) = some entry) {around : List String}
    (hsuffix : around <:+ place) : tree.stands? around = some .directory := by
  obtain ⟨inner, rfl⟩ := hsuffix
  induction inner generalizing name entry with
  | nil => exact h name around entry hentry
  | cons first inner ih => exact ih (h name _ entry hentry)

theorem isGrounded_empty : IsGrounded {} := by
  intro name place entry h
  cases haround : isAround (name :: place) with
  | true => exact stands?_of_isAround _ (isAround_cons haround)
  | false =>
      rw [stands?, haround] at h
      cases h

theorem IsGrounded.put {tree : FileTree} (h : tree.IsGrounded) {place : List String}
    (haround : isAround place = false) (hin : tree.stands? (place.drop 1) = some .directory)
    {entry : Entry} (hkeeps : tree.stands? place = some .directory → entry = .directory) :
    (tree.put place entry).IsGrounded := by
  intro name other inner hinner
  rw [stands?_put tree haround] at hinner ⊢
  by_cases hother : other = place
  · -- what stands in the place stood there before, so that the place was a directory
    subst hother
    rw [if_neg (List.cons_ne_self name other)] at hinner
    rw [if_pos rfl, hkeeps (h name other inner hinner)]
  · rw [if_neg hother]
    by_cases hplace : name :: other = place
    · subst hplace
      exact hin
    · rw [if_neg hplace] at hinner
      exact h name other inner hinner

theorem extends_put {tree : FileTree} {place : List String} (h : tree.stands? place = none)
    (entry : Entry) : tree.Extends (tree.put place entry) := by
  intro other inner hinner
  have haround : isAround place = false := isAround_of_ne_directory (by rw [h]; nofun)
  have hne : other ≠ place := by
    rintro rfl
    rw [h] at hinner
    cases hinner
  rw [stands?_put tree haround, if_neg hne, hinner]

/-! ### Paths -/

/-- A step begins in a directory, and from there it depends on the name alone. -/
theorem step_eq_ok_iff {tree : FileTree} {place next : List String} {name : String} :
    tree.step place name = .ok next ↔ tree.stands? place = some .directory ∧
      if name = ".." then (if isAround place then name :: place else place.drop 1) = next
      else if isDots name then place = next
      else name.utf8ByteSize ≤ longestName ∧ name :: place = next := by
  rw [step, bind_eq_ok, ← directoryAt_eq_ok_iff]
  refine Iff.trans ⟨fun ⟨_, h⟩ => h, fun h => ⟨(), h⟩⟩ (and_congr_right fun _ => ?_)
  by_cases hback : name = ".."
  · rw [if_pos hback, if_pos hback, pure_eq_ok]
  · rw [if_neg hback, if_neg hback]
    by_cases hdots : isDots name = true
    · rw [if_pos hdots, if_pos hdots, pure_eq_ok]
    · rw [if_neg hdots, if_neg hdots]
      by_cases hlong : longestName < name.utf8ByteSize
      · rw [if_pos hlong]
        exact ⟨nofun, fun h => absurd h.1 (Nat.not_le.2 hlong)⟩
      · rw [if_neg hlong, pure_eq_ok]
        exact (and_iff_right (Nat.not_lt.1 hlong)).symm

/-- Some names lead from a place to another one. -/
def Leads (tree : FileTree) (place : List String) (names : List String) (last : List String) : Prop :=
  names.foldlM tree.step place = .ok last

theorem leads_nil_iff {tree : FileTree} {place last : List String} :
    tree.Leads place [] last ↔ place = last := pure_eq_ok

theorem leads_cons_iff {tree : FileTree} {place last : List String} {name : String}
    {names : List String} :
    tree.Leads place (name :: names) last ↔
      ∃ next, tree.step place name = .ok next ∧ tree.Leads next names last := by
  rw [Leads, List.foldlM_cons, bind_eq_ok]
  rfl

theorem leads_append_iff {tree : FileTree} {place last : List String} {names more : List String} :
    tree.Leads place (names ++ more) last ↔
      ∃ next, tree.Leads place names next ∧ tree.Leads next more last := by
  rw [Leads, List.foldlM_append, bind_eq_ok]
  rfl

namespace Leads

variable {tree tree' : FileTree} {names : List String} {place last : List String}

/-- Where names lead to, they lead to as well once there are more directories. -/
theorem of_directories (hwalk : tree.Leads place names last)
    (h : ∀ place, tree.stands? place = some .directory → tree'.stands? place = some .directory) :
    tree'.Leads place names last := by
  induction names generalizing place with
  | nil => exact hwalk
  | cons name names ih =>
      obtain ⟨next, hstep, hrest⟩ := leads_cons_iff.1 hwalk
      obtain ⟨hplace, hnext⟩ := step_eq_ok_iff.1 hstep
      exact leads_cons_iff.2 ⟨next, step_eq_ok_iff.2 ⟨h place hplace, hnext⟩, ih hrest⟩

/-- Names that do not go back lead further in. -/
theorem suffix (hwalk : tree.Leads place names last) (hback : ".." ∉ names) : place <:+ last := by
  induction names generalizing place with
  | nil =>
      obtain rfl := leads_nil_iff.1 hwalk
      exact List.suffix_rfl
  | cons name names ih =>
      obtain ⟨next, hstep, hrest⟩ := leads_cons_iff.1 hwalk
      rw [List.mem_cons, not_or] at hback
      refine List.IsSuffix.trans ?_ (ih hrest hback.2)
      obtain ⟨-, hnext⟩ := step_eq_ok_iff.1 hstep
      rw [if_neg (Ne.symm hback.1)] at hnext
      split at hnext
      · exact hnext ▸ List.suffix_rfl
      · exact hnext.2 ▸ List.suffix_cons name place

/-- Names that do not go back lead to the same place in another tree if all places around it are
directories there. -/
theorem of_suffixes (hwalk : tree'.Leads place names last) (hback : ".." ∉ names)
    (h : ∀ around, around <:+ last → tree.stands? around = some .directory) :
    tree.Leads place names last := by
  induction names generalizing place with
  | nil => exact hwalk
  | cons name names ih =>
      have hplace := h place (hwalk.suffix hback)
      obtain ⟨next, hstep, hrest⟩ := leads_cons_iff.1 hwalk
      obtain ⟨-, hnext⟩ := step_eq_ok_iff.1 hstep
      have hnames : ".." ∉ names := fun hmem => hback (List.mem_cons_of_mem _ hmem)
      exact leads_cons_iff.2 ⟨next, step_eq_ok_iff.2 ⟨hplace, hnext⟩, ih hrest hnames⟩

end Leads

theorem walk_eq_ok_iff {tree : FileTree} {path : String} {place : List String} :
    tree.walk path = .ok place ↔ checkPath path = .ok () ∧ tree.Leads [] (names path) place := by
  rw [walk, walkNames, bind_eq_ok]
  exact ⟨fun ⟨_, h⟩ => h, fun h => ⟨(), h⟩⟩

/-- A path leads where it led before if there are more directories. -/
theorem walk_of_directories {tree tree' : FileTree}
    (h : ∀ place, tree.stands? place = some .directory → tree'.stands? place = some .directory)
    {path : String} {place : List String} (hwalk : tree.walk path = .ok place) :
    tree'.walk path = .ok place := by
  rw [walk_eq_ok_iff] at hwalk ⊢
  exact ⟨hwalk.1, hwalk.2.of_directories h⟩

/-- A path that does not go back led before to what stood there before. -/
theorem walk_of_grounded {tree tree' : FileTree} (hgrounded : tree.IsGrounded) {path name : String}
    {around : List String} (hnames : names path = around ++ [name]) (hback : ".." ∉ names path)
    (hname : isDots name = false) {place : List String} (hwalk : tree'.walk path = .ok place)
    {entry : Entry} (hentry : tree.stands? place = some entry) : tree.walk path = .ok place := by
  obtain ⟨hcheck, hleads⟩ := walk_eq_ok_iff.1 hwalk
  rw [hnames] at hleads hback
  rw [List.mem_append, not_or, List.mem_singleton] at hback
  -- the last name leads from a place into it, so that this one is not empty
  obtain ⟨last, haround, hlast⟩ := leads_append_iff.1 hleads
  obtain ⟨next, hstep, hend⟩ := leads_cons_iff.1 hlast
  obtain rfl := leads_nil_iff.1 hend
  obtain ⟨-, hnext⟩ := step_eq_ok_iff.1 hstep
  have hinto := hnext
  rw [if_neg (Ne.symm hback.2), hname, if_neg Bool.false_ne_true] at hinto
  obtain ⟨-, rfl⟩ := hinto
  have hdirectories : ∀ inner, inner <:+ last → tree.stands? inner = some .directory :=
    fun _ hinner => hgrounded.directory_of_suffix hentry hinner
  refine walk_eq_ok_iff.2 ⟨hcheck, ?_⟩
  rw [hnames]
  refine leads_append_iff.2 ⟨last, haround.of_suffixes hback.1 hdirectories, ?_⟩
  exact leads_cons_iff.2
    ⟨_, step_eq_ok_iff.2 ⟨hdirectories last List.suffix_rfl, hnext⟩, leads_nil_iff.2 rfl⟩

/-! ### Writing -/

theorem find?_eq_some_iff {tree : FileTree} {path : String} {entry : Entry} :
    tree.find? path = some entry ↔
      ∃ place, tree.walk path = .ok place ∧ tree.stands? place = some entry := by
  rw [find?]
  cases tree.walk path <;> simp [Except.toOption]

/-- A text is written to a place in a directory that is no directory itself. -/
theorem write_eq_ok_iff {tree after : FileTree} {path text : String} :
    tree.write path text = .ok after ↔ ∃ place, tree.walk path = .ok place ∧
      tree.stands? (place.drop 1) = some .directory ∧ tree.stands? place ≠ some .directory ∧
      after = tree.put place (.file text) := by
  rw [write, bind_eq_ok]
  refine exists_congr fun place => and_congr_right fun _ => ?_
  rw [bind_eq_ok]
  constructor
  · rintro ⟨_, hin, hwrite⟩
    refine ⟨directoryAt_eq_ok_iff.1 hin, ?_⟩
    split at hwrite
    · cases hwrite
    · next hne => exact ⟨hne, (pure_eq_ok.1 hwrite).symm⟩
  · rintro ⟨hin, hne, rfl⟩
    refine ⟨(), directoryAt_eq_ok_iff.2 hin, ?_⟩
    split
    · next hdirectory => exact absurd hdirectory hne
    · rfl

theorem read_eq_ok_iff {tree : FileTree} {path text : String} :
    tree.read path = .ok text ↔ tree.find? path = some (.file text) := by
  rw [read, bind_eq_ok, find?_eq_some_iff]
  refine exists_congr fun place => and_congr_right fun _ => ?_
  split <;> simp_all [pure, Except.pure, throw, throwThe, MonadExceptOf.throw]

/-- **What is written is read.** -/
theorem read_of_write {tree after : FileTree} {path text : String}
    (h : tree.write path text = .ok after) : after.read path = .ok text := by
  obtain ⟨place, hwalk, -, hne, rfl⟩ := write_eq_ok_iff.1 h
  have haround := isAround_of_ne_directory hne
  refine read_eq_ok_iff.2 (find?_eq_some_iff.2 ⟨place, ?_, ?_⟩)
  · -- the path does not lead through the place, which was no directory
    refine walk_of_directories (fun other hother => ?_) hwalk
    have hother' : other ≠ place := fun heq => hne (heq ▸ hother)
    rw [stands?_put tree haround, if_neg hother', hother]
  · rw [stands?_put tree haround, if_pos rfl]

theorem read_of_extends {tree after : FileTree} (h : tree.Extends after) {path text : String}
    (hread : tree.read path = .ok text) : after.read path = .ok text := by
  rw [read_eq_ok_iff, find?_eq_some_iff] at hread ⊢
  obtain ⟨place, hwalk, hentry⟩ := hread
  exact ⟨place, walk_of_directories (fun other => h other .directory) hwalk, h place _ hentry⟩

theorem isGrounded_of_write {tree after : FileTree} {path text : String}
    (h : tree.write path text = .ok after) (hgrounded : tree.IsGrounded) : after.IsGrounded := by
  obtain ⟨place, -, hin, hne, rfl⟩ := write_eq_ok_iff.1 h
  exact hgrounded.put (isAround_of_ne_directory hne) hin fun hdirectory => absurd hdirectory hne

/-- What was not found is new once it is written, if it cannot have been behind a directory that was
not there. -/
theorem extends_of_write {tree made after : FileTree} (hgrounded : tree.IsGrounded)
    (hmade : tree.Extends made) {path name text : String} {around : List String}
    (hnames : names path = around ++ [name]) (hback : ".." ∉ names path)
    (hname : isDots name = false) (hfree : tree.find? path = none)
    (h : made.write path text = .ok after) : tree.Extends after := by
  obtain ⟨place, hwalk, -, hne, rfl⟩ := write_eq_ok_iff.1 h
  intro other entry hentry
  have hother : other ≠ place := by
    rintro rfl
    have hfound := find?_eq_some_iff.2
      ⟨other, walk_of_grounded hgrounded hnames hback hname hwalk hentry, hentry⟩
    rw [hfree] at hfound
    cases hfound
  rw [stands?_put made (isAround_of_ne_directory hne), if_neg hother]
  exact hmade other entry hentry

/-! ### Making directories -/

theorem grows_of_makeAt {tree after : FileTree} {place : List String} {name : String}
    (h : tree.makeAt place name = .ok after) : tree.Grows after := by
  rw [makeAt, bind_eq_ok] at h
  obtain ⟨_, hin, h⟩ := h
  split at h
  · cases h
  · next hdots =>
    obtain ⟨inner, hstep, h⟩ := bind_eq_ok.1 h
    obtain ⟨-, hnext⟩ := step_eq_ok_iff.1 hstep
    have hne : name ≠ ".." := by
      rintro rfl
      exact hdots rfl
    rw [if_neg hne, if_neg hdots] at hnext
    obtain ⟨-, rfl⟩ := hnext
    split at h
    · cases h
    · next hfree =>
      obtain rfl := pure_eq_ok.1 h
      have haround : isAround (name :: place) = false :=
        isAround_of_ne_directory (by rw [hfree]; nofun)
      exact ⟨extends_put hfree _, fun hgrounded =>
        hgrounded.put haround (directoryAt_eq_ok_iff.1 hin) fun _ => rfl⟩

theorem grows_of_makeDirectory {tree after : FileTree} {path : String}
    (h : tree.makeDirectory path = .ok after) : tree.Grows after := by
  rw [makeDirectory, bind_eq_ok] at h
  obtain ⟨_, -, h⟩ := h
  split at h
  · cases h
  · obtain ⟨place, -, hmake⟩ := bind_eq_ok.1 h
    exact grows_of_makeAt hmake

/-! ### Actions -/

theorem run_isThere (tree : FileTree) (path : String) :
    (access.isThere path).run tree = pure ((tree.find? path).isSome, tree) := rfl

theorem run_read (tree : FileTree) (path : String) :
    (access.read path).run tree = pure (tree.read path, tree) := rfl

theorem run_change (f : FileTree → Except FileFault FileTree) (tree : FileTree) :
    (change f).run tree = pure (match f tree with
      | .ok after => (.ok (), after)
      | .error fault => (.error fault, tree)) := by
  rw [change]
  simp only [StateT.run_bind, StateT.run_get, pure_bind]
  cases f tree <;> rfl

theorem run_write (tree : FileTree) (path text : String) :
    (access.write path text).run tree = pure (match tree.write path text with
      | .ok after => (.ok (), after)
      | .error fault => (.error fault, tree)) := run_change (·.write path text) tree

/-- An action that makes a tree grow, if it changes it at all. -/
def OnlyGrows {α : Type} (action : StateM FileTree α) : Prop :=
  ∀ tree : FileTree, tree.Grows (action.run tree).2

namespace OnlyGrows

variable {α β : Type}

theorem pure (a : α) : OnlyGrows (Pure.pure a) := fun tree => .refl tree

theorem bind {action : StateM FileTree α} {next : α → StateM FileTree β} (h : OnlyGrows action)
    (hnext : ∀ a, OnlyGrows (next a)) : OnlyGrows (action >>= next) :=
  fun tree => (h tree).trans (hnext _ _)

theorem change {f : FileTree → Except FileFault FileTree}
    (h : ∀ tree after, f tree = .ok after → tree.Grows after) : OnlyGrows (change f) := by
  intro tree
  rw [run_change]
  cases hafter : f tree with
  | ok after => exact h tree after hafter
  | error fault => exact .refl tree

end OnlyGrows

/-- To ask for a directory changes nothing. -/
theorem onlyGrows_accept (path : String) (result : Except FileFault Unit) :
    OnlyGrows (access.accept path result) := by
  cases result with
  | ok => exact .pure _
  | error fault =>
      rw [FileAccess.accept]
      exact .bind (fun tree => .refl tree) fun _ => .pure _

theorem onlyGrows_makeFirst (paths : List String) : OnlyGrows (access.makeFirst paths) := by
  induction paths with
  | nil => exact .pure _
  | cons path around ih =>
      have hmake : OnlyGrows (access.makeDirectory path) :=
        .change fun tree after h => grows_of_makeDirectory h
      rw [FileAccess.makeFirst]
      refine .bind hmake fun result => ?_
      split
      · refine .bind ih fun result => ?_
        split
        · exact .bind hmake fun result => onlyGrows_accept path result
        · exact .pure _
      · exact onlyGrows_accept path result

theorem onlyGrows_makeDirectories (path : String) : OnlyGrows (access.makeDirectories path) := by
  rw [FileAccess.makeDirectories]
  split
  · exact .pure _
  · exact onlyGrows_makeFirst _

theorem exists_run_makeDirectories (tree : FileTree) (path : String) :
    ∃ answer made, (access.makeDirectories path).run tree = pure (answer, made) ∧ tree.Grows made :=
  ⟨_, _, rfl, onlyGrows_makeDirectories path tree⟩

theorem isGrounded_addFile {tree : FileTree} (h : tree.IsGrounded) (path text : String) :
    ((addFile path text).run tree).2.IsGrounded := by
  obtain ⟨answer, made, hmade, hgrows⟩ :=
    exists_run_makeDirectories tree (String.intercalate "/" (names path).dropLast)
  simp only [addFile, StateT.run_bind, hmade, run_write, pure_bind]
  cases hwrite : made.write path text with
  | ok after => exact isGrounded_of_write hwrite (hgrows.grounded h)
  | error fault => exact hgrows.grounded h

/-- The tree of some files is grounded, whatever paths they have. -/
theorem isGrounded_ofFiles (files : List (String × String)) : (ofFiles files).IsGrounded := by
  have hrun : ∀ tree : FileTree, tree.IsGrounded →
      ((files.forM fun file => addFile file.1 file.2).run tree).2.IsGrounded := by
    induction files with
    | nil => exact fun _ h => h
    | cons file files ih => exact fun _ h => ih _ (isGrounded_addFile h file.1 file.2)
  exact hrun {} isGrounded_empty

end FileTree

end OData.CommandLine
