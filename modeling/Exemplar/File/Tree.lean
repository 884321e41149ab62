import Exemplar.File.Path

/-!
# Exemplar.File.Tree

Files and directories as a tree.  A place in the tree is given by the names that lead to it.

* `FileTree.at?`, `FileTree.put` — what is at a place, and putting something there;
* `FileTree.files`, `FileTree.ofFiles` — the files of a tree, and the tree of files.
-/

namespace Exemplar

/-- A file with its bytes, or a directory with what it holds. -/
inductive FileTree where
  | file (content : ByteArray)
  | directory (entries : List (String × FileTree))

namespace FileTree

/-! ## places -/

/-- The tree under a name. -/
def child? : FileTree → String → Option FileTree
  | directory entries, name => (entries.find? (·.1 = name)).map (·.2)
  | file _, _ => none

/-- The tree that names lead to. -/
def at? (tree : FileTree) (names : List String) : Option FileTree := names.foldlM child? tree

/-- Puts a tree under a name: in place of the one there, or at the end. -/
def putEntry (name : String) (tree : FileTree) :
    List (String × FileTree) → List (String × FileTree)
  | [] => [(name, tree)]
  | (n, t) :: rest => if n = name then (name, tree) :: rest else (n, t) :: putEntry name tree rest

/-- Puts a tree at a place; directories on the way that are missing make it have no effect. -/
def put (new : FileTree) : List String → FileTree → FileTree
  | [], _ => new
  | [name], directory entries => directory (putEntry name new entries)
  | name :: rest, directory entries =>
    directory (entries.map fun (n, t) => if n = name then (n, put new rest t) else (n, t))
  | _ :: _, file content => file content

/-! ## files -/

mutual

/-- The files of a tree, with their paths below the given one. -/
def files (path : String) : FileTree → List (String × ByteArray)
  | file content => [(path, content)]
  | directory entries => filesIn path entries

/-- The files of the entries of a directory. -/
def filesIn (path : String) : List (String × FileTree) → List (String × ByteArray)
  | [] => []
  | (name, tree) :: rest => tree.files (joinPath path name) ++ filesIn path rest

end

/-- Puts a file at a place; directories on the way that are missing are made, and a file on the
way gives way to one. -/
def addFile (content : ByteArray) : List String → FileTree → FileTree
  | [], _ => file content
  | name :: rest, directory entries =>
    let below := ((entries.find? (·.1 = name)).map (·.2)).getD (directory [])
    directory (putEntry name (addFile content rest below) entries)
  | name :: rest, file _ => directory [(name, addFile content rest (directory []))]

/-- The tree of files with their paths. -/
def ofFiles (files : List (String × ByteArray)) : FileTree :=
  files.foldl (fun tree (path, content) => addFile content (pathParts path) tree) (directory [])

end FileTree

end Exemplar
