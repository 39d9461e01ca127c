import WorkflowCanvas.Json.Token

/-! Reading document text. The tokens drive a machine with a stack of open lists and
objects, so that nesting may be as deep as the text is long. A fault names the first place
at which the text cannot go on. -/
namespace WorkflowCanvas.Json
set_option autoImplicit false

/-! ## Faults -/

/-- What is wrong at a place of the text. -/
inductive Complaint where
  | byteOrderMark
  | value
  | name
  | colon
  | comma
  | surplus
  | string (fault : StringFault)
deriving DecidableEq, Repr

def Complaint.message : Complaint → String
  | byteOrderMark => "Unexpected UTF-8 BOM (decode using utf-8-sig)"
  | value => "Expecting value"
  | name => "Expecting property name enclosed in double quotes"
  | colon => "Expecting ':' delimiter"
  | comma => "Expecting ',' delimiter"
  | surplus => "Extra data"
  | string .unterminated => "Unterminated string starting at"
  | string .control => "Invalid control character at"
  | string .escape => "Invalid \\escape"
  | string .codePoint => "Invalid \\uXXXX escape"

/-- A place in a text, counted in characters from 0, with its line and column from 1. -/
structure Spot where
  line : Nat
  column : Nat
  place : Nat
deriving DecidableEq, Repr

/-- The spot of a place; only a line feed ends a line. -/
def spotOf (cs : List Char) (place : Nat) : Spot :=
  let before := cs.take place
  ⟨before.count '\n' + 1, (before.reverse.takeWhile (· != '\n')).length + 1, place⟩

/-- Why a text is not read. -/
inductive ReadFault where
  | malformed (complaint : Complaint) (spot : Spot)
  | notObject (kind : String)
  | longNumber (digits : Nat)
deriving DecidableEq, Repr

def ReadFault.message : ReadFault → String
  | malformed complaint spot =>
    s!"Invalid JSON: {complaint.message}: line {spot.line} column {spot.column} (char {spot.place})"
  | notObject kind => s!"Expected a JSON object, got {kind}"
  | longNumber digits =>
    s!"Exceeds the limit ({digitLimit} digits) for integer string conversion: " ++
      s!"value has {digits} digits; use sys.set_int_max_str_digits() to increase the limit"

/-! ## The machine -/

/-- An open list or object with what it holds so far, newest first. -/
inductive Frame where
  | list (items : List Json)
  | object (fields : List (String × Json))
  | field (fields : List (String × Json)) (name : String)

/-- What may come next. -/
inductive Expect where
  | value
  | firstItem
  | firstName
  | name
  | colon
  | delimiter
  | nothing (result : Json)

/-- A value has been read: it is the result, or it goes into the innermost open frame. -/
def deliver (value : Json) : List Frame → Expect × List Frame
  | [] => (.nothing value, [])
  | .list items :: stack => (.delimiter, .list (value :: items) :: stack)
  | .field fields name :: stack => (.delimiter, .object ((name, value) :: fields) :: stack)
  | .object fields :: stack => (.delimiter, .object fields :: stack)

/-- A refusal at a place of the token list. -/
inductive Refusal where
  | complaint (what : Complaint) (place : Nat)
  | longNumber (digits : Nat)

/-- One token where a value must start. -/
def startValue (place : Nat) (token : Token) (stack : List Frame) :
    Except Refusal (Expect × List Frame) :=
  match token with
  | .openArr => .ok (.firstItem, .list [] :: stack)
  | .openObj => .ok (.firstName, .object [] :: stack)
  | .text s => .ok (deliver (str s) stack)
  | .whole n digits =>
    if digitLimit < digits then .error (.longNumber digits) else .ok (deliver (int n) stack)
  | .constant v => .ok (deliver v stack)
  | _ => .error (.complaint .value place)

/-- One token where the name of a field must stand. -/
def startField (place : Nat) (token : Token) : List Frame → Except Refusal (Expect × List Frame)
  | .object fields :: stack =>
    match token with
    | .text s => .ok (.colon, .field fields s :: stack)
    | _ => .error (.complaint .name place)
  | _ => .error (.complaint .name place)

/-- One token after a value inside a list or object. -/
def afterValue (place : Nat) (token : Token) : List Frame → Except Refusal (Expect × List Frame)
  | .list items :: stack =>
    match token with
    | .comma => .ok (.value, .list items :: stack)
    | .closeArr => .ok (deliver (arr items.reverse) stack)
    | _ => .error (.complaint .comma place)
  | .object fields :: stack =>
    match token with
    | .comma => .ok (.name, .object fields :: stack)
    | .closeObj => .ok (deliver (obj (Fields.ofPairs fields.reverse)) stack)
    | _ => .error (.complaint .comma place)
  | _ => .error (.complaint .comma place)

/-- One token in a state of the machine. -/
def step (expect : Expect) (place : Nat) (token : Token) (stack : List Frame) :
    Except Refusal (Expect × List Frame) :=
  match expect with
  | .value => startValue place token stack
  | .firstItem =>
    match token with
    | .closeArr => .ok (deliver (arr []) (stack.drop 1))
    | _ => startValue place token stack
  | .firstName =>
    match token with
    | .closeObj => .ok (deliver (obj []) (stack.drop 1))
    | _ => startField place token stack
  | .name => startField place token stack
  | .colon =>
    match token with
    | .colon => .ok (.value, stack)
    | _ => .error (.complaint .colon place)
  | .delimiter => afterValue place token stack
  | .nothing _ => .error (.complaint .surplus place)

/-- The end of the tokens in a state of the machine. -/
def finish (expect : Expect) (place : Nat) (reason : Stop) : Except Refusal Json :=
  let orString (what : Complaint) : Except Refusal Json :=
    match reason with
    | .badString fault there => .error (.complaint (.string fault) there)
    | _ => .error (.complaint what place)
  match expect with
  | .value | .firstItem => orString .value
  | .firstName | .name => orString .name
  | .colon => .error (.complaint .colon place)
  | .delimiter => .error (.complaint .comma place)
  | .nothing result =>
    match reason with
    | .finished => .ok result
    | _ => .error (.complaint .surplus place)

def run (expect : Expect) (stack : List Frame) : Tokens → Except Refusal Json
  | .stop place reason => finish expect place reason
  | .more place token rest =>
    match step expect place token stack with
    | .ok (next, stack) => run next stack rest
    | .error refusal => .error refusal

/-! ## Texts -/

def readChars (cs : List Char) : Except ReadFault Json :=
  if cs.head? == some '\uFEFF' then .error (.malformed .byteOrderMark (spotOf cs 0))
  else match run .value [] (tokens cs) with
    | .ok v => .ok v
    | .error (.complaint what place) => .error (.malformed what (spotOf cs place))
    | .error (.longNumber digits) => .error (.longNumber digits)

def read (text : String) : Except ReadFault Json := readChars text.toList

/-- Reads a text whose value must be an object. -/
def readObject (text : String) : Except ReadFault Fields :=
  match read text with
  | .ok (obj fields) => .ok fields
  | .ok v => .error (.notObject v.kindName)
  | .error fault => .error fault

end WorkflowCanvas.Json
