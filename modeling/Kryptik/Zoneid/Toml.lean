import Kryptik.Lib.Text

namespace Kryptik.Zoneid

open Lib.Text

inductive TomlErrorKind
  | unterminatedString
  | unterminatedSection
  | emptySectionName
  | missingEquals
  | emptyKey
  | keyOutsideSection
  | duplicateKey (key : String)
  | trailingGarbage (tail : String)
  | unsupported (what : String)
  | badEscape (c : Char)
  deriving DecidableEq

structure TomlError where
  line : ℕ
  kind : TomlErrorKind

structure Section where
  name : String
  entries : List (String × String)

structure Document where
  sections : List Section

def Document.get (doc : Document) (sectionName key : String) : Option String := do
  let s ← doc.sections.find? (·.name = sectionName)
  let entry ← s.entries.find? (·.1 = key)
  return entry.2

/-- The line before its comment; `quote` is the one of the string it stands in. A backslash skips what follows
it in a basic string only. -/
def stripComment : Option Char → List Char → Except TomlErrorKind (List Char)
  | none, [] => .ok []
  | some _, [] => .error .unterminatedString
  | none, c :: cs =>
    if c = '#' then .ok []
    else (stripComment (if c = '"' ∨ c = '\'' then some c else none) cs).map (c :: ·)
  | some '"', ['\\'] => .error .unterminatedString
  | some '"', '\\' :: c :: cs => (stripComment (some '"') cs).map (fun rest => '\\' :: c :: rest)
  | some q, c :: cs => (stripComment (if c = q then none else some q) cs).map (c :: ·)

def unescape : Char → Except TomlErrorKind Char
  | 'n' => .ok '\n'
  | 't' => .ok '\t'
  | 'r' => .ok '\r'
  | '"' => .ok '"'
  | '\\' => .ok '\\'
  | '0' => .ok '\x00'
  | other => .error (.badEscape other)

def readBasicString : List Char → Except TomlErrorKind (List Char × List Char)
  | [] => .error .unterminatedString
  | '"' :: rest => .ok ([], rest)
  | ['\\'] => .error .unterminatedString
  | '\\' :: e :: rest => do
    let c ← unescape e
    let (text, tail) ← readBasicString rest
    return (c :: text, tail)
  | c :: rest => do
    let (text, tail) ← readBasicString rest
    return (c :: text, tail)

def withoutTail (text tail : List Char) : Except TomlErrorKind (List Char) :=
  if (trim tail).isEmpty then .ok text else .error (.trailingGarbage (String.ofList (trim tail)))

def parseValue (v : List Char) : Except TomlErrorKind (List Char) :=
  match stripPrefix '"' v with
  | some rest => do
    let (text, tail) ← readBasicString rest
    withoutTail text tail
  | none =>
    match stripPrefix '\'' v with
    | some rest =>
      match splitOnce '\'' rest with
      | none => .error .unterminatedString
      | some (text, tail) => withoutTail text tail
    | none => .ok v

structure Reader where
  doc : Document
  current : Option ℕ

def openSection (st : Reader) (name : String) : Reader :=
  match st.doc.sections.findIdx? (·.name = name) with
  | some i => { st with current := some i }
  | none => ⟨⟨st.doc.sections ++ [⟨name, []⟩]⟩, some st.doc.sections.length⟩

def header (st : Reader) (rest : List Char) : Except TomlErrorKind Reader :=
  if rest.head? = some '[' then .error (.unsupported "an array-of-tables header")
  else match stripSuffix ']' rest with
    | none => .error .unterminatedSection
    | some name =>
      let name := trim name
      if name.isEmpty then .error .emptySectionName
      else if name.contains '.' then .error (.unsupported "a dotted section name")
      else .ok (openSection st (String.ofList name))

def addEntry (st : Reader) (key value : String) : Except TomlErrorKind Reader :=
  match st.current with
  | none => .error .keyOutsideSection
  | some i =>
    match st.doc.sections[i]? with
    | none => .ok st -- no section's index is past the end
    | some s =>
      if s.entries.any (·.1 = key) then .error (.duplicateKey (s.name ++ "." ++ key))
      else .ok { st with doc := ⟨st.doc.sections.set i { s with entries := s.entries ++ [(key, value)] }⟩ }

def keyValue (st : Reader) (key value : List Char) : Except TomlErrorKind Reader :=
  if key.isEmpty then .error .emptyKey
  else if key.contains '.' then .error (.unsupported "a dotted key")
  else if value.head? = some '[' then .error (.unsupported "an array value")
  else if value.head? = some '{' then .error (.unsupported "an inline table")
  else if value.take 3 = ['"', '"', '"'] ∨ value.take 3 = ['\'', '\'', '\''] then
    .error (.unsupported "a multi-line string")
  else do
    let value ← parseValue value
    addEntry st (String.ofList key) (String.ofList value)

def tomlLine (st : Reader) (raw : List Char) : Except TomlErrorKind Reader := do
  let text := trim (← stripComment none raw)
  if text.isEmpty then .ok st
  else match stripPrefix '[' text with
    | some rest => header st rest
    | none =>
      match splitOnce '=' text with
      | none => .error .missingEquals
      | some (key, value) => keyValue st (trim key) (trim value)

def parse (input : String) : Except TomlError Document := do
  let st ← ((lines input.toList).zipIdx 1).foldlM
    (fun st line => (tomlLine st line.1).mapError (TomlError.mk line.2)) ⟨⟨[]⟩, none⟩
  return st.doc

end Kryptik.Zoneid
