/-!
# Files of the journal

The files below the directory of a journal, by their paths. A directory is there when a file lies in
it. The text of a packed file can be read; any other file is there but holds nothing that can be
unpacked.
-/

namespace Stagewise

/-- What a file holds. -/
inductive FileContent where
  | packed (text : String)
  | plain (text : String)
  deriving DecidableEq, Repr

/-- The names of the directories on the way to a file, and its own. -/
abbrev FilePath := List String

/-- The files below a directory. -/
structure Volume where
  files : List (FilePath × FileContent)
  deriving Repr, Inhabited

namespace Volume

def empty : Volume := ⟨[]⟩

def get? (v : Volume) (path : FilePath) : Option FileContent := v.files.lookup path

def isDirectory (v : Volume) (path : FilePath) : Bool :=
  v.files.any fun (p, _) => path.length < p.length && p.take path.length == path

def exists? (v : Volume) (path : FilePath) : Bool := (v.get? path).isSome || v.isDirectory path

/-- Whether the directories on the way to a path can be made: none of them is a file. -/
def canHold (v : Volume) (path : FilePath) : Bool :=
  (List.range path.length).all fun n => (v.get? (path.take n)).isNone

/-- Puts a file at a path, in the stead of an older one. -/
def put (path : FilePath) (content : FileContent) :
    List (FilePath × FileContent) → List (FilePath × FileContent)
  | [] => [(path, content)]
  | (p, c) :: rest => if path = p then (path, content) :: rest else (p, c) :: put path content rest

def write (v : Volume) (path : FilePath) (content : FileContent) : Volume :=
  ⟨put path content v.files⟩

end Volume

namespace Text

/-- Takes a carriage return off the end of a line, whose characters are kept in reverse. -/
def withoutReturn : List Char → List Char
  | '\r' :: taken => taken
  | taken => taken

/-- The lines of a text, the first of which begins with the characters `taken`, in reverse. A line
feed ends a line and takes a carriage return before it along; what follows the last one is a line
unless it is empty. -/
def linesFrom (taken : List Char) : List Char → List String
  | [] => if taken.isEmpty then [] else [String.ofList taken.reverse]
  | c :: rest =>
    if c = '\n' then String.ofList (withoutReturn taken).reverse :: linesFrom [] rest
    else linesFrom (c :: taken) rest

def lines (s : String) : List String := linesFrom [] s.toList

end Text

end Stagewise
