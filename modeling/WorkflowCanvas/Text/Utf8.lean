import WorkflowCanvas.Text.Quoted

/-! Texts as bytes. A character takes one to four bytes; reading tells the first row of bytes
that is none, by its place and by what is wrong with it. Main statement: ASCII is written and
read byte by byte. -/
namespace WorkflowCanvas.Text.Utf8
set_option autoImplicit false

/-! ## Writing -/

/-- A byte that carries six bits further. -/
def further (bits : Nat) : UInt8 := UInt8.ofNat (0x80 + bits % 0x40)

def charBytes (c : Char) : List UInt8 :=
  let n := c.toNat
  if n < 0x80 then [UInt8.ofNat n]
  else if n < 0x800 then [UInt8.ofNat (0xC0 + n / 0x40), further n]
  else if n < 0x10000 then [UInt8.ofNat (0xE0 + n / 0x1000), further (n / 0x40), further n]
  else
    [UInt8.ofNat (0xF0 + n / 0x40000), further (n / 0x1000), further (n / 0x40), further n]

def encode (cs : List Char) : List UInt8 := cs.flatMap charBytes

/-! ## Reading -/

/-- What is wrong with a row of bytes. -/
inductive Defect where
  | start
  | continuation
  | cut
deriving DecidableEq, Repr

/-- A row of bytes that is no character: where it starts, how long it is, and its first byte. -/
structure Fault where
  defect : Defect
  place : Nat
  length : Nat
  first : UInt8
deriving DecidableEq, Repr

def Defect.message : Defect → String
  | start => "invalid start byte"
  | continuation => "invalid continuation byte"
  | cut => "unexpected end of data"

def Fault.message (f : Fault) : String :=
  let byte := String.ofList (hex 2 f.first.toNat)
  let which :=
    if f.length = 1 then s!"byte 0x{byte} in position {f.place}"
    else s!"bytes in position {f.place}-{f.place + f.length - 1}"
  s!"'utf-8' codec can't decode {which}: {f.defect.message}"

/-- A character that has been read in part: how many bytes are missing, the range of the next,
and the bits so far. -/
structure Part where
  missing : Nat
  low : Nat
  high : Nat
  bits : Nat

/-- The character that a byte starts, when it is not the whole of one. -/
def lead? (b : Nat) : Option Part :=
  if 0xC2 ≤ b ∧ b ≤ 0xDF then some ⟨0, 0x80, 0xBF, b - 0xC0⟩
  else if b = 0xE0 then some ⟨1, 0xA0, 0xBF, 0⟩
  else if b = 0xED then some ⟨1, 0x80, 0x9F, 0xD⟩
  else if 0xE1 ≤ b ∧ b ≤ 0xEF then some ⟨1, 0x80, 0xBF, b - 0xE0⟩
  else if b = 0xF0 then some ⟨2, 0x90, 0xBF, 0⟩
  else if 0xF1 ≤ b ∧ b ≤ 0xF3 then some ⟨2, 0x80, 0xBF, b - 0xF0⟩
  else if b = 0xF4 then some ⟨2, 0x80, 0x8F, 4⟩
  else none

/-- A character whose reading has begun. -/
structure Open where
  part : Part
  place : Nat
  first : UInt8

/-- Reads bytes from a place on, in the middle of a character or between two. -/
def decodeFrom (place : Nat) (opened : Option Open) : List UInt8 → Except Fault (List Char)
  | [] =>
    match opened with
    | none => .ok []
    | some o => .error ⟨.cut, o.place, place - o.place, o.first⟩
  | b :: rest =>
    let n := b.toNat
    match opened with
    | none =>
      if n < 0x80 then (decodeFrom (place + 1) none rest).map (Char.ofNat n :: ·)
      else match lead? n with
        | some part => decodeFrom (place + 1) (some ⟨part, place, b⟩) rest
        | none => .error ⟨.start, place, 1, b⟩
    | some o =>
      if o.part.low ≤ n ∧ n ≤ o.part.high then
        let bits := o.part.bits * 0x40 + (n - 0x80)
        match o.part.missing with
        | 0 => (decodeFrom (place + 1) none rest).map (Char.ofNat bits :: ·)
        | missing + 1 =>
          decodeFrom (place + 1) (some { o with part := ⟨missing, 0x80, 0xBF, bits⟩ }) rest
      else .error ⟨.continuation, o.place, place - o.place, o.first⟩

def decode (bytes : List UInt8) : Except Fault (List Char) := decodeFrom 0 none bytes

/-! ## Line breaks -/

/-- A carriage return ends a line like a line feed, and both together end one. -/
def plainBreaks : List Char → List Char
  | '\r' :: '\n' :: rest => '\n' :: plainBreaks rest
  | '\r' :: rest => '\n' :: plainBreaks rest
  | c :: rest => c :: plainBreaks rest
  | [] => []

/-! ## ASCII -/

theorem decodeFrom_encode_ascii {cs : List Char} (h : ∀ c ∈ cs, c.toNat < 0x80) (place : Nat) :
    decodeFrom place none (encode cs) = .ok cs := by
  induction cs generalizing place with
  | nil => rfl
  | cons c rest ih =>
    have hc : c.toNat < 0x80 := h c List.mem_cons_self
    have ih := ih (fun d hd => h d (List.mem_cons_of_mem _ hd)) (place + 1)
    have hb : (UInt8.ofNat c.toNat).toNat = c.toNat := by
      rw [UInt8.toNat_ofNat', Nat.mod_eq_of_lt (by omega)]
    simp only [encode, List.flatMap_cons, charBytes, hc, if_true, List.singleton_append,
      decodeFrom, hb] at ih ⊢
    rw [ih]
    simp [Except.map]

theorem decode_encode_ascii {cs : List Char} (h : ∀ c ∈ cs, c.toNat < 0x80) :
    decode (encode cs) = .ok cs := decodeFrom_encode_ascii h 0

end WorkflowCanvas.Text.Utf8
