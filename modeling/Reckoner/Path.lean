import Reckoner.Text.Basic

/-! Paths: names separated by slashes, from the root of the tree or from the folder in which a
command runs.  Empty names and single dots count for nothing; two dots are kept, since what they
mean is known only on a disk. -/

namespace Reckoner

/-- A path.  A relative one has no slash at its start; an absolute one has one, or just two. -/
structure Path where
  slashes : Nat
  names : List Text
  deriving DecidableEq, Repr

/-- Home folders: that of whoever runs the program, if it is known, and those of the accounts of the
machine. -/
structure Homes where
  own : Option Text := none
  accounts : List (Text × Text) := []
  deriving DecidableEq, Repr

/-- The home folders where an environment variable may name that of whoever runs the program. -/
def Homes.withOwn (homes : Homes) (own : Option Text) : Homes := { homes with own := own <|> homes.own }

/-- The home folder of an account; without a name, that of whoever runs the program. -/
def Homes.of? (homes : Homes) (owner : Text) : Option Text :=
  if owner.isEmpty then homes.own else homes.accounts.lookup owner

namespace Path

/-- The path that a text stands for. -/
def ofText (s : Text) : Path where
  slashes :=
    match (s.takeWhile (· == '/')).length with
    | 0 => 0
    | 2 => 2
    | _ => 1
  names := (s.splitAt '/').filter fun name => !name.isEmpty && name != ['.']

/-- Whether the path starts at the root of the tree. -/
def isAbsolute (path : Path) : Bool := path.slashes != 0

/-- The text of a path; the empty relative path is a dot. -/
def text (path : Path) : Text :=
  if path.slashes = 0 && path.names.isEmpty then "."
  else List.replicate path.slashes '/' ++ Text.joined "/" path.names

/-- The path `inner` taken from the folder `outer`. -/
def join (outer inner : Path) : Path :=
  if inner.isAbsolute then inner else { outer with names := outer.names ++ inner.names }

/-- The path with one more name. -/
def child (folder : Path) (name : Text) : Path := { folder with names := folder.names ++ [name] }

/-- The path without its last name. -/
def parent (path : Path) : Path := { path with names := path.names.dropLast }

/-- The absolute path with these names. -/
def ofNames (names : List Text) : Path := ⟨1, names⟩

/-- The names that are left when two dots take away the name before them. -/
def collapsed (names : List Text) : List Text :=
  names.foldl (fun kept name => if name = "..".toList then kept.dropLast else kept ++ [name]) []

/-- The absolute path without two dots, of a path taken from the folder with these names. -/
def resolved (folder : List Text) (path : Path) : Path :=
  ofNames (collapsed (if path.isAbsolute then path.names else folder ++ path.names))

/-- Whether a name has the character that ends a name in system calls. -/
def hasZero (path : Path) : Bool := path.names.any fun name => name.elem (Char.ofNat 0)

/-- The text without the slashes at its end. -/
def withoutSlashes (s : Text) : Text := (s.reverse.dropWhile (· == '/')).reverse

/-- Whether the path starts with the sign for a home folder. -/
def startsHome (path : Path) : Bool :=
  !path.isAbsolute && path.names.head?.any fun name => name.head? == some '~'

/-- The path with the home folder put in place of the sign for it, if that is known.  A folder that
starts with the sign itself is no home. -/
def expandHome? (homes : Homes) (path : Path) : Option Path :=
  if !path.startsHome then some path
  else
    match path.names with
    | ('~' :: owner) :: names =>
      match (homes.of? owner).map withoutSlashes with
      | none | some ('~' :: _) => none
      | some home =>
        let folder := ofText (if home.isEmpty then "/" else home)
        some { folder with names := folder.names ++ names }
    | _ => none

end Path

end Reckoner
