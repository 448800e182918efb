import T81VM.Library.Decimal
import T81VM.Library.Regex
import T81VM.ProgramIo.Opcodes

/-!
# Loading program artifacts

The two artifact formats: Text V1, read line by line, and TISC JSON V1, read
by scanning for brackets and searching for fields.  The C++ library functions
they call are defined first.
-/

namespace T81VM.ProgramIo

open Tisc GreedyRegex

inductive ProgramFormat where
  | textV1 | tiscJsonV1
  deriving DecidableEq, Repr

/-- The program of a result that has none yet. -/
def emptyProgram : Program where
  insns := []
  axionPolicyText := []
  fits := by decide

structure ProgramLoadResult where
  ok : Bool := false
  format : ProgramFormat := .textV1
  program : Program := emptyProgram
  error : Text := []
  deriving DecidableEq

/-! ## The standard library -/

/-- `push_back` on the instructions of a program. -/
def pushInsn (program : Program) (insn : Insn) :
    Except StdException Program :=
  if room : program.insns.length < maxInsns then
    .ok { program with
      insns := program.insns ++ [insn]
      fits := by
        rw [List.length_append]
        exact room }
  else
    .error .lengthError

/-- The lines successive calls of `std::getline` extract. -/
def getlines : Text → List Text
  | [] => []
  | byte :: rest =>
      if isByte '\n' byte then [] :: getlines rest
      else
        match getlines rest with
        | [] => [[byte]]
        | line :: lines => (byte :: line) :: lines

/-- `iss >> word`: the next run of bytes that are no spaces. -/
def extractWord (input : Text) : Text × Text :=
  let start := input.dropWhile isSpace
  (start.takeWhile fun byte => !isSpace byte,
    start.dropWhile fun byte => !isSpace byte)

/-- The value of a signed word with this magnitude, unless it overflows. -/
def signedWord (negative : Bool) (magnitude : Nat) : Option Int64 :=
  if negative then
    if magnitude ≤ 2 ^ 63 then some (Int64.ofInt (-magnitude)) else none
  else
    if magnitude < 2 ^ 63 then some (Int64.ofInt magnitude) else none

/-- The optional sign of a number, and what follows it. -/
def splitSign : Text → Bool × Text
  | [] => (false, [])
  | byte :: rest =>
      if isByte '-' byte then (true, rest)
      else if isByte '+' byte then (false, rest)
      else (false, byte :: rest)

/-- `iss >> value` for a signed word that holds `old`.  A stream that failed
is `none`: it extracts nothing any more. -/
def extractInt (old : Int64) : Option Text → Int64 × Option Text
  | none => (old, none)
  | some input =>
      match input.dropWhile isSpace with
      | [] => (old, none)
      | start =>
          let (negative, unsigned) := splitSign start
          let digits := unsigned.takeWhile Decimal.isDigit
          if digits.isEmpty then (0, none)
          else
            match signedWord negative (Decimal.value digits) with
            | some value =>
                (value, some (unsigned.dropWhile Decimal.isDigit))
            | none =>
                (if negative then Int64.minValue else Int64.maxValue, none)

/-- `std::stoll` of an optional minus sign and digits. -/
def stoll (number : Text) : Except StdException Int64 :=
  let (negative, digits) := splitSign number
  match signedWord negative (Decimal.value digits) with
  | some value => .ok value
  | none => .error .outOfRange

/-! ## Text V1 -/

/-- The statement `op rest`: the policy, or one instruction.  An unknown
opcode ends the loop over the lines. -/
def loadStatement (out : ProgramLoadResult) (op rest : Text) :
    Except StdException (ProgramLoadResult × Bool) :=
  if op = text "POLICY" then
    .ok ({ out with
      program := { out.program with
        axionPolicyText :=
          trim (rest.takeWhile fun byte => !isByte '\n' byte) } }, true)
  else
    let (a, rest) := extractInt 0 (some rest)
    let (b, rest) := extractInt 0 rest
    let (c, _) := extractInt 0 rest
    match opcodeFromString op with
    | none =>
        .ok ({ out with
          error := text "unknown opcode in text program: " ++ op }, false)
    | some opcode => do
        let program ← pushInsn out.program { opcode, a, b, c }
        return ({ out with program }, true)

/-- One line of a text program; empty lines and comments are skipped. -/
def loadLine (out : ProgramLoadResult) (line : Text) :
    Except StdException (ProgramLoadResult × Bool) :=
  match trim line with
  | [] => .ok (out, true)
  | first :: others =>
      if isByte '#' first then .ok (out, true)
      else
        let (op, rest) := extractWord (first :: others)
        loadStatement out op rest

/-- The loop over the lines; a refused line ends it. -/
def loadLines (out : ProgramLoadResult) :
    List Text → Except StdException ProgramLoadResult
  | [] => .ok { out with ok := true }
  | line :: lines => do
      let (out, goesOn) ← loadLine out line
      if goesOn then loadLines out lines else return out

theorem loadLines_nil {out : ProgramLoadResult} :
    loadLines out [] = .ok { out with ok := true } := rfl

theorem loadLines_cons {out : ProgramLoadResult} {line : Text}
    {lines : List Text} :
    loadLines out (line :: lines) =
      loadLine out line >>= fun answer =>
        if answer.2 then loadLines answer.1 lines else .ok answer.1 := rfl

def loadTextV1 (input : Text) : Except StdException ProgramLoadResult :=
  loadLines { format := .textV1 } (getlines input)

/-! ## TISC JSON V1 -/

/-- The start of both field expressions: the key in quotes, and a colon. -/
def fieldRe (key : Text) : List (Piece UInt8) :=
  literal (text "\"" ++ (key ++ text "\""))
    ++ [.star isSpace, .one (isByte ':'), .star isSpace]

/-- The expression `"key"\s*:\s*(-?[0-9]+)`. -/
def intFieldRe (key : Text) : List (Piece UInt8) :=
  fieldRe key
    ++ [.capture [.optional (isByte '-'), .plus Decimal.isDigit]]

/-- The expression `"key"\s*:\s*"([^"]*)"`. -/
def stringFieldRe (key : Text) : List (Piece UInt8) :=
  fieldRe key
    ++ [.one (isByte '"'), .capture [.star fun byte => !isByte '"' byte],
      .one (isByte '"')]

/-- The first capture of a search. -/
def firstCapture (pattern : List (Piece UInt8)) (obj : Text) : Option Text :=
  (search pattern obj).bind fun found => found.captures.head?

def parseIntField (obj key : Text) : Except StdException (Option Int64) :=
  match firstCapture (intFieldRe key) obj with
  | none => .ok none
  | some number => do
      let value ← stoll number
      return some value

def parseStringField (obj key : Text) : Option Text :=
  firstCapture (stringFieldRe key) obj

/-- Scan to the bracket that brings the depth back to zero: the text up to
it, and what follows. -/
def scanClosing (opening closing : UInt8) : Int → Text → Option (Text × Text)
  | _, [] => none
  | depth, byte :: rest =>
      if byte == opening then
        (scanClosing opening closing (depth + 1) rest).map
          fun (inside, later) => (byte :: inside, later)
      else if byte == closing then
        if depth - 1 = 0 then some ([byte], rest)
        else
          (scanClosing opening closing (depth - 1) rest).map
            fun (inside, later) => (byte :: inside, later)
      else
        (scanClosing opening closing depth rest).map
          fun (inside, later) => (byte :: inside, later)

/-- The operands of an instruction object, unless a field is missing.  A field
is not parsed when an earlier one is missing. -/
def parseOperands (obj : Text) :
    Except StdException (Option (Int64 × Int64 × Int64)) := do
  match ← parseIntField obj (text "a") with
  | none => return none
  | some a =>
      match ← parseIntField obj (text "b") with
      | none => return none
      | some b =>
          match ← parseIntField obj (text "c") with
          | none => return none
          | some c => return some (a, b, c)

/-- The loop over the objects of the array body, each shorter than the rest
of the body: `fuel` bounds its length. -/
def loadObjects (out : ProgramLoadResult) :
    (fuel : Nat) → Text → Except StdException ProgramLoadResult
  | 0, _ => .ok out
  | fuel + 1, body =>
      match Scan.find (text "\x7b") body with
      | none =>
          if out.program.insns.isEmpty then
            .ok { out with error := text "insns array is empty" }
          else
            .ok { out with ok := true }
      | some start =>
          match scanClosing '\x7b'.toUInt8 '\x7d'.toUInt8 0 start with
          | none => .ok { out with error := text "unterminated insn object" }
          | some (obj, rest) =>
              match parseStringField obj (text "opcode") with
              | none =>
                  .ok { out with
                    error := text "missing opcode in insn object" }
              | some opname =>
                  match opcodeFromString opname with
                  | none =>
                      .ok { out with
                        error :=
                          text "unknown opcode in json program: " ++ opname }
                  | some opcode => do
                      match ← parseOperands obj with
                      | none =>
                          return { out with
                            error := text
                              "insn object requires integer fields a,b,c" }
                      | some (a, b, c) =>
                          let program ←
                            pushInsn out.program { opcode, a, b, c }
                          loadObjects { out with program } fuel rest

section LoadObjects

variable {out : ProgramLoadResult} {fuel : Nat} {body : Text}

theorem loadObjects_zero : loadObjects out 0 body = .ok out := by
  rw [loadObjects]

theorem loadObjects_of_find_eq_none
    (none : Scan.find (text "\x7b") body = none) :
    loadObjects out (fuel + 1) body =
      if out.program.insns.isEmpty then
        .ok { out with error := text "insns array is empty" }
      else .ok { out with ok := true } := by
  rw [loadObjects, none]

end LoadObjects

def loadTiscJsonV1 (input : Text) : Except StdException ProgramLoadResult :=
  let policy := parseStringField input (text "axion_policy_text")
  let out : ProgramLoadResult :=
    { format := .tiscJsonV1
      program := { emptyProgram with
        axionPolicyText := policy.getD [] } }
  match Scan.find (text "\"insns\"") input with
  | none => .ok { out with error := text "missing insns array" }
  | some key =>
      match Scan.find (text "[") key with
      | none => .ok { out with error := text "invalid insns array" }
      | some array =>
          match scanClosing '['.toUInt8 ']'.toUInt8 0 array with
          | none => .ok { out with error := text "unterminated insns array" }
          | some (scanned, _) =>
              -- The body stands between the brackets.
              let body := scanned.tail.dropLast
              loadObjects out (body.length + 1) body

def looksLikeJsonPath (path : Text) : Bool :=
  path.length ≥ 5 && path.drop (path.length - 5) == text ".json"

/-- `load_program_from_file`, for the content of the file at the path. -/
def loadProgramFromFile (content : Option Text) (path : Text) :
    Except StdException ProgramLoadResult :=
  match content with
  | none =>
      .ok { ok := false, format := .textV1,
            error := text "unable to open file: " ++ path }
  | some input =>
      if looksLikeJsonPath path then loadTiscJsonV1 input
      else loadTextV1 input

end T81VM.ProgramIo
