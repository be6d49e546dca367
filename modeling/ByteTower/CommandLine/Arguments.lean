import ByteTower.Tower.Standard

namespace ByteTower.CommandLine

inductive Task
  | info
  | dump
  | read (block : Nat)
  | write (block : Nat) (text : String) (offset : Nat)
  | insert (index count : Nat)
  | delete (index count : Nat)
deriving DecidableEq

structure Invocation where
  path : String
  sizes : Sizes
  task : Task
deriving DecidableEq

/-- Why there is nothing to do with a file. -/
inductive Stop
  | wrong
  | help
  | version
deriving DecidableEq

/-- A number of at most 64 bits in decimal digits, perhaps behind a plus sign. -/
def number? (text : String) : Option Nat :=
  let digits :=
    match text.toList with
    | '+' :: digits => digits
    | digits => digits
  if digits ≠ [] ∧ digits.all Char.isDigit then
    let n := digits.foldl (fun n c => 10 * n + (c.toNat - '0'.toNat)) 0
    if n < UInt64.size then some n else none
  else none

inductive Argument
  /-- Two dashes: all that follows is plain. -/
  | escape
  | long (name : String) (value : Option String)
  /-- A letter behind a dash, and what follows it at once. -/
  | short (letter : Char) (rest : List Char)
  | plain (text : String)

def Argument.ofString (text : String) : Argument :=
  match text.toList with
  | ['-', '-'] => escape
  | '-' :: '-' :: rest =>
    let name := rest.takeWhile (· != '=')
    match rest.drop name.length with
    | _ :: value => long (String.ofList name) (some (String.ofList value))
    | [] => long (String.ofList name) none
  | '-' :: letter :: rest => short letter rest
  | _ => plain text

inductive Setting
  | blockSize
  | window
  | buffer
  | offset
deriving DecidableEq

def Setting.ofLong? : String → Option Setting
  | "block-size" => some blockSize
  | "window" => some window
  | "buffer" => some buffer
  | "offset" => some offset
  | _ => none

def Setting.ofLetter? : Char → Option Setting
  | 'b' => some blockSize
  | 'w' => some window
  | 'o' => some offset
  | _ => none

inductive Operand
  | path
  | number
  | text
deriving DecidableEq

def Operand.accepts (text : String) : Operand → Bool
  | path => text != ""
  | number => (number? text).isSome
  | Operand.text => true

/-- What may stand at a place in the command line. -/
structure Grammar where
  settings : List Setting
  operands : List Operand
  /-- Plain arguments that end this part of the command line. -/
  keywords : List String := []
  hasVersion : Bool := false

structure Found where
  operands : List String := []
  settings : List (Setting × Nat) := []

namespace Grammar

/-- What an argument with dashes means: a setting, with its value if that is attached, or the end
of all reading. -/
def dashed (g : Grammar) : Argument → Except Stop (Setting × Option String)
  | .long "help" none => throw .help
  | .long "version" none => throw (if g.hasVersion then .version else .wrong)
  | .long name value =>
    match Setting.ofLong? name with
    | some s => if s ∈ g.settings then return (s, value) else throw .wrong
    | none => throw .wrong
  | .short 'h' _ => throw .help
  | .short 'V' _ => throw (if g.hasVersion then .version else .wrong)
  | .short letter rest =>
    match Setting.ofLetter? letter with
    | some s =>
      if s ∈ g.settings then
        match rest with
        | [] => return (s, none)
        | '=' :: value => return (s, some (String.ofList value))
        | value => return (s, some (String.ofList value))
      else throw .wrong
    | none => throw .wrong
  | .escape => throw .wrong
  | .plain _ => throw .wrong

/-- Notes the value of a setting, which may be given once. -/
def assign (f : Found) (s : Setting) (text : String) : Except Stop Found :=
  match number? text with
  | some n =>
    if (f.settings.lookup s).isSome then throw .wrong
    else return { f with settings := (s, n) :: f.settings }
  | none => throw .wrong

def operand (g : Grammar) (f : Found) (text : String) : Except Stop Found :=
  match g.operands[f.operands.length]? with
  | some kind =>
    if kind.accepts text then return { f with operands := f.operands ++ [text] } else throw .wrong
  | none => throw .wrong

/-- Reads arguments up to a keyword. Yields what was found, and the keyword with all behind it. -/
def scan (g : Grammar) (f : Found) : List String → Except Stop (Found × List String)
  | [] => return (f, [])
  | text :: rest =>
    match Argument.ofString text with
    | .escape => do
      let f ← rest.foldlM g.operand f
      return (f, [])
    | .plain text =>
      if text ∈ g.keywords then return (f, text :: rest)
      else do
        let f ← g.operand f text
        scan g f rest
    | argument => do
      match ← g.dashed argument with
      | (s, some value) => do
        let f ← assign f s value
        scan g f rest
      | (s, none) =>
        match rest with
        | [] => throw .wrong
        | value :: rest =>
          match Argument.ofString value with
          | .plain value => do
            let f ← assign f s value
            scan g f rest
          | _ => throw .wrong

end Grammar

def keywords : List String := ["info", "dump", "read", "write", "insert", "delete", "help"]

def fileGrammar : Grammar :=
  { settings := [.blockSize, .window, .buffer]
    operands := [.path]
    keywords
    hasVersion := true }

def taskGrammar : String → Grammar
  | "read" => { settings := [], operands := [.number] }
  | "write" => { settings := [.offset], operands := [.number, .text] }
  | "insert" | "delete" => { settings := [], operands := [.number, .number] }
  | _ => { settings := [], operands := [] }

def task? (name : String) (f : Found) : Option Task :=
  match name, f.operands with
  | "info", [] => some .info
  | "dump", [] => some .dump
  | "read", [block] => return .read (← number? block)
  | "write", [block, text] =>
    return .write (← number? block) text ((f.settings.lookup .offset).getD 0)
  | "insert", [index] => return .insert (← number? index) 1
  | "insert", [index, count] => return .insert (← number? index) (← number? count)
  | "delete", [index] => return .delete (← number? index) 1
  | "delete", [index, count] => return .delete (← number? index) (← number? count)
  | _, _ => none

def sizesOf (f : Found) : Sizes :=
  let usual : Sizes := {}
  { window := (f.settings.lookup .window).getD usual.window
    buffer := (f.settings.lookup .buffer).getD usual.buffer
    block := (f.settings.lookup .blockSize).getD usual.block }

/-- Arguments are read from left to right, and the first one that decides the matter does so. -/
def parse (arguments : List String) : Except Stop Invocation := do
  let (file, rest) ← fileGrammar.scan {} arguments
  match rest with
  | [] => throw .wrong
  | name :: rest =>
    if name = "help" then
      throw (if rest.all (· ∈ keywords) ∧ rest.length ≤ 1 then .help else .wrong)
    else do
      let (found, _) ← (taskGrammar name).scan {} rest
      match file.operands, task? name found with
      | [path], some task => return { path, sizes := sizesOf file, task }
      | _, _ => throw .wrong

end ByteTower.CommandLine
