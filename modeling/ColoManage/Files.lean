import ColoManage.Config

/-!
# The files of a machine

colod writes and reads files by the text of a path, and several texts name one file.
-/

namespace ColoManage

/-- Which file the text of a path names, links followed, and `none` where it names
none that can be opened: a directory on the way may be missing. -/
structure Paths where
  resolve : String → Option String
  save : resolve defaultSaveFile = some defaultSaveFile

namespace Paths

/-- Enters a component of a path; the directories passed so far come innermost first. -/
def enter (dirs : List (List Char)) (part : List Char) : List (List Char) :=
  if part = [] ∨ part = ['.'] then dirs
  else if part = ['.', '.'] then dirs.tail
  else part :: dirs

/-- The file a path names on a machine that has every directory and no links.  A relative
path starts at the root, where `colod_daemon` changes to. -/
def locate (path : String) : Option String :=
  let parts := path.toList.splitOn '/'
  let file := parts.getLastD []
  if file = [] ∨ file = ['.'] ∨ file = ['.', '.'] then none
  else
    let dirs := parts.foldl enter []
    some (String.ofList (dirs.reverse.flatMap fun part => '/' :: part))

def plain : Paths where
  resolve := locate
  save := by decide +kernel

example : plain.resolve "/usr/local//etc/ssh/../colod/./save.yaml" = some defaultSaveFile := by
  decide +kernel

example : plain.resolve "d.yaml" = some "/d.yaml" := by decide +kernel

end Paths

end ColoManage
