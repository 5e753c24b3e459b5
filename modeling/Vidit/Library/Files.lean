import Mathlib.Data.List.Infix
import Mathlib.Logic.Function.Basic
import Vidit.Library.Checks

/-!
Contract: directories and files, as a program opens, writes and removes them by path.

A path is followed hop by hop from the root; a hop goes up or into a name. No place is a link.

Owns:
- the tree, with every directory in a directory and no place both a directory and a file;
- making a directory and its ancestors, opening a file to write it anew, appending, removing;
- where each of them can change the tree.

Does not own: how the text of a path is read, permissions, and the room that is left.
-/

namespace Vidit.Library

variable {ν β : Type}

/-- One component of a path, as a path is followed. -/
inductive Hop (ν : Type) where
  | up
  | into (name : ν)
deriving DecidableEq, Repr

/-- Where a directory or a file is: the names from the root to it. -/
abbrev Place (ν : Type) := List ν

def Hop.go (here : Place ν) : Hop ν → Place ν
  | .up => here.dropLast
  | .into name => here ++ [name]

/-- The place a path leads to. -/
def follow (here : Place ν) (path : List (Hop ν)) : Place ν :=
  path.foldl Hop.go here

theorem follow_append (here : Place ν) (path rest : List (Hop ν)) :
    follow here (path ++ rest) = follow (follow here path) rest :=
  List.foldl_append

@[simp] theorem follow_concat_into (here : Place ν) (path : List (Hop ν)) (name : ν) :
    follow here (path ++ [.into name]) = follow here path ++ [name] := by
  rw [follow_append]
  rfl

@[simp] theorem follow_concat_up (here : Place ν) (path : List (Hop ν)) :
    follow here (path ++ [.up]) = (follow here path).dropLast := by
  rw [follow_append]
  rfl

/-- The tree: what is a directory, and what a file holds. -/
structure Disk (ν β : Type) where
  isDir : Place ν → Bool
  file : Place ν → Option (List β)
  root : isDir [] = true
  parents : ∀ place, isDir place = true → isDir place.dropLast = true
  apart : ∀ place, isDir place = true → file place = none

inductive FileError where
  | notFound
  | notADirectory
  | isADirectory
deriving DecidableEq, Repr

namespace Disk

/-- The place a path leads to, where each hop leaves a directory. -/
def resolve (disk : Disk ν β) (here : Place ν) : List (Hop ν) → Except FileError (Place ν)
  | [] => pure here
  | hop :: rest =>
    if disk.isDir here then resolve disk (hop.go here) rest
    else if (disk.file here).isSome then .error .notADirectory
    else .error .notFound

variable (disk : Disk ν β)

theorem resolve_ok {here place : Place ν} {path : List (Hop ν)}
    (resolved : disk.resolve here path = .ok place) : place = follow here path := by
  induction path generalizing here with
  | nil =>
      cases resolved
      rfl
  | cons hop rest inductionHypothesis =>
      rw [resolve] at resolved
      split at resolved
      · exact inductionHypothesis resolved
      · split at resolved <;> cases resolved

/-- A path that ends with a hop up leads to a directory. -/
theorem isDir_of_resolve_up {here place : Place ν} {path : List (Hop ν)}
    (resolved : disk.resolve here (path ++ [.up]) = .ok place) : disk.isDir place = true := by
  induction path generalizing here with
  | nil =>
      rw [List.nil_append] at resolved
      rw [resolve] at resolved
      split at resolved
      · rename_i directory
        cases resolved
        exact disk.parents here directory
      · split at resolved <;> cases resolved
  | cons hop rest inductionHypothesis =>
      rw [List.cons_append] at resolved
      rw [resolve] at resolved
      split at resolved
      · exact inductionHypothesis resolved
      · split at resolved <;> cases resolved

end Disk

section Writes

variable [DecidableEq ν]

namespace Disk

/-- A place becomes an empty directory. -/
def addDir (disk : Disk ν β) (parent : Place ν) (name : ν) (directory : disk.isDir parent = true)
    (free : disk.file (parent ++ [name]) = none) : Disk ν β where
  isDir := fun place => place = parent ++ [name] || disk.isDir place
  file := disk.file
  root := by simp [disk.root]
  parents := by
    intro place
    simp only [Bool.or_eq_true, decide_eq_true_eq]
    intro here
    obtain rfl | old := here
    · rw [List.dropLast_concat]
      exact .inr directory
    · exact .inr (disk.parents place old)
  apart := by
    intro place
    simp only [Bool.or_eq_true, decide_eq_true_eq]
    intro here
    obtain rfl | old := here
    · exact free
    · exact disk.apart place old

/-- A file is there, with these bytes, or is not. -/
def setFile (disk : Disk ν β) (target : Place ν) (content : Option (List β))
    (free : disk.isDir target = false) : Disk ν β where
  isDir := disk.isDir
  file := Function.update disk.file target content
  root := disk.root
  parents := disk.parents
  apart := by
    intro place directory
    have different : place ≠ target := by
      intro same
      rw [same, free] at directory
      cases directory
    rw [Function.update_of_ne different]
    exact disk.apart place directory

/-- Make the directories on a path that are missing. -/
def makeDirs (disk : Disk ν β) (here : Place ν) (directory : disk.isDir here = true) :
    List (Hop ν) → Except FileError (Disk ν β)
  | [] => pure disk
  | .up :: rest => disk.makeDirs here.dropLast (disk.parents here directory) rest
  | .into name :: rest =>
    if known : disk.isDir (here ++ [name]) = true then disk.makeDirs (here ++ [name]) known rest
    else if free : disk.file (here ++ [name]) = none then
      (disk.addDir here name directory free).makeDirs (here ++ [name]) (by simp [addDir]) rest
    else .error .notADirectory

/-- Open a file to write it anew; the place it is at. -/
def openWrite (disk : Disk ν β) (path : List (Hop ν)) : Except FileError (Place ν × Disk ν β) :=
  match disk.resolve [] path with
  | .error failure => .error failure
  | .ok place =>
    if free : disk.isDir place = false then pure (place, disk.setFile place (some []) free)
    else .error .isADirectory

/-- Write at the end of a file that is open. -/
def append (disk : Disk ν β) (target : Place ν) (content : List β) : Disk ν β :=
  if free : disk.isDir target = false then
    disk.setFile target (some ((disk.file target).getD [] ++ content)) free
  else disk

/-- Remove a file, where there is one. -/
def unlink (disk : Disk ν β) (target : Place ν) : Disk ν β :=
  if free : disk.isDir target = false then disk.setFile target none free else disk

variable {disk made opened : Disk ν β} {here place target : Place ν} {path : List (Hop ν)}
  {content : List β}

theorem makeDirs_file {directory : disk.isDir here = true}
    (making : disk.makeDirs here directory path = .ok made) : made.file = disk.file := by
  induction path generalizing disk here with
  | nil =>
      cases making
      rfl
  | cons hop rest inductionHypothesis =>
      cases hop with
      | up => exact inductionHypothesis making
      | into name =>
          rw [makeDirs] at making
          split at making
          · exact inductionHypothesis making
          · split at making
            · have same := inductionHypothesis making
              exact same
            · cases making

/-- Only places the path goes through become directories. -/
theorem makeDirs_isDir {directory : disk.isDir here = true}
    (making : disk.makeDirs here directory path = .ok made) (found : made.isDir place = true) :
    disk.isDir place = true ∨ ∃ first rest, path = first ++ rest ∧ place = follow here first := by
  induction path generalizing disk here with
  | nil =>
      cases making
      exact .inl found
  | cons hop rest inductionHypothesis =>
      have later : (∃ first last, rest = first ++ last ∧ place = follow (hop.go here) first) →
          ∃ first last, hop :: rest = first ++ last ∧ place = follow here first := by
        intro through
        obtain ⟨first, last, rfl, rfl⟩ := through
        exact ⟨hop :: first, last, rfl, rfl⟩
      cases hop with
      | up =>
          obtain old | through := inductionHypothesis making
          · exact .inl old
          · exact .inr (later through)
      | into name =>
          rw [makeDirs] at making
          split at making
          · obtain old | through := inductionHypothesis making
            · exact .inl old
            · exact .inr (later through)
          · split at making
            · obtain old | through := inductionHypothesis making
              · simp only [addDir, Bool.or_eq_true, decide_eq_true_eq] at old
                obtain rfl | old := old
                · exact .inr ⟨[.into name], rest, rfl, rfl⟩
                · exact .inl old
              · exact .inr (later through)
            · cases making

theorem openWrite_ok (opening : disk.openWrite path = .ok (place, opened)) :
    place = follow [] path ∧ opened.isDir = disk.isDir ∧
      opened.file = Function.update disk.file place (some []) ∧ disk.isDir place = false := by
  unfold openWrite at opening
  cases resolved : disk.resolve [] path with
  | error failure => simp [resolved] at opening
  | ok found =>
      rw [resolved] at opening
      simp only at opening
      split at opening
      · rename_i free
        cases opening
        exact ⟨disk.resolve_ok resolved, rfl, rfl, free⟩
      · cases opening

/-- A path that ends with a hop up cannot be opened to write. -/
theorem openWrite_up : ¬ ∃ place opened, disk.openWrite (path ++ [.up]) = .ok (place, opened) := by
  intro opening
  obtain ⟨place, opened, opening⟩ := opening
  unfold openWrite at opening
  cases resolved : disk.resolve [] (path ++ [.up]) with
  | error failure => simp [resolved] at opening
  | ok found =>
      rw [resolved] at opening
      simp [disk.isDir_of_resolve_up resolved] at opening

theorem append_isDir : (disk.append target content).isDir = disk.isDir := by
  unfold append
  split <;> rfl

theorem append_file (free : disk.isDir target = false) :
    (disk.append target content).file =
      Function.update disk.file target (some ((disk.file target).getD [] ++ content)) := by
  unfold append
  rw [dif_pos free]
  rfl

theorem unlink_isDir : (disk.unlink target).isDir = disk.isDir := by
  unfold unlink
  split <;> rfl

theorem unlink_file (free : disk.isDir target = false) :
    (disk.unlink target).file = Function.update disk.file target none := by
  unfold unlink
  rw [dif_pos free]
  rfl

end Disk

end Writes

end Vidit.Library
