/-! Files in a directory, and what comes of reading a path there. A path that is too long is not
looked at. Any other is walked part by part; only a directory can be walked on from, and only a file
can be read. Outside of the directory nothing is known but that there are directories above it. -/

namespace StandingQuery.CommandLine

inductive FileFault where
  | notFound
  | notDirectory
  | isDirectory
  | nameTooLong
  | notText
  /-- Any other fault, in the words of the system. -/
  | other (message : String)
deriving DecidableEq, Repr

def FileFault.message : FileFault → String
  | .notFound => "No such file or directory (os error 2)"
  | .notDirectory => "Not a directory (os error 20)"
  | .isDirectory => "Is a directory (os error 21)"
  | .nameTooLong => "File name too long (os error 36)"
  | .notText => "stream did not contain valid UTF-8"
  | .other message => message

/-- The text that is encoded in UTF-8. -/
def textOf (bytes : ByteArray) : Except FileFault String :=
  match String.fromUTF8? bytes with
  | some s => .ok s
  | none => .error .notText

/-- The files in a directory, by the parts of their paths. -/
abbrev Directory := List (List String × ByteArray)

namespace Directory

inductive Place where
  /-- A directory inside, or the whole for no parts. -/
  | inside (parts : List String)
  | outside
  | file (bytes : ByteArray)

/-- The parts between the slashes. -/
def partsOf (path : String) : List String := path.splitOn "/"

def ofFiles (files : List (String × ByteArray)) : Directory :=
  files.map fun (path, bytes) => ((partsOf path).filter (!·.isEmpty), bytes)

/-- The most bytes of UTF-8 that a part can have. -/
def partLimit : Nat := 255

/-- The most bytes of UTF-8 that a path can have. -/
def pathLimit : Nat := 4095

/-- One part further. An empty part and a single dot stay in the directory. No file in a directory
has a name that is too long, so such a part is at fault wherever a name is looked up. -/
def walk (d : Directory) (p : Place) (part : String) : Except FileFault Place :=
  match p with
  | .file _ => .error .notDirectory
  | .outside =>
    if part = "" ∨ part = "." ∨ part = ".." then .ok .outside
    else if partLimit < part.utf8ByteSize then .error .nameTooLong
    else .error .notFound
  | .inside parts =>
    if part = "" ∨ part = "." then .ok (.inside parts)
    else if partLimit < part.utf8ByteSize then .error .nameTooLong
    else if part = ".." then .ok (if parts.isEmpty then .outside else .inside parts.dropLast)
    else
      let parts := parts ++ [part]
      match d.find? (·.1 == parts) with
      | some (_, bytes) => .ok (.file bytes)
      | none =>
        if d.any fun f => parts.isPrefixOf f.1 then .ok (.inside parts) else .error .notFound

def read (d : Directory) (path : String) : Except FileFault String := do
  if pathLimit < path.utf8ByteSize then throw .nameTooLong
  let start : Place := if path.startsWith "/" then .outside else .inside []
  match ← (partsOf path).foldlM d.walk start with
  | .file bytes => textOf bytes
  | .inside _ | .outside => .error .isDirectory

end Directory
end StandingQuery.CommandLine
