import Remedy.Text.Bytes
/-!
# UTF-8

`Utf8.decode?` is strict: overlong forms, surrogates and stray bytes are
refused. `Utf8.repair` reads anything and puts one U+FFFD in place of each
longest run of bytes that begins a character but does not complete it.
-/

namespace Remedy

namespace Utf8

/-- The UTF-8 form of a text. -/
def encode (text : String) : Bytes := text.toByteArray.data.toList

/-- The text of a valid UTF-8 sequence. -/
def decode? (bytes : Bytes) : Option String := String.fromUTF8? ⟨bytes.toArray⟩

/-- A byte that continues a character. -/
def isContinuation (b : UInt8) : Bool := 0x80 ≤ b && b ≤ 0xBF

/-- The byte after `first` that may continue a three- or four-byte
character: the range leaves out overlong forms, surrogates and what lies
past the last code point. -/
def mayFollow (first second : UInt8) : Bool :=
  if first = 0xE0 then 0xA0 ≤ second && second ≤ 0xBF
  else if first = 0xED then 0x80 ≤ second && second ≤ 0x9F
  else if first = 0xF0 then 0x90 ≤ second && second ≤ 0xBF
  else if first = 0xF4 then 0x80 ≤ second && second ≤ 0x8F
  else isContinuation second

/-- The low six bits of a continuation byte. -/
def payload (b : UInt8) : Nat := b.toNat % 64

/-- The replacement character U+FFFD. -/
def replacement : Char := Char.ofNat 0xFFFD

/-- Reads one character or one broken run. The answer is the character
that stands for it and how many bytes after the first belong to it. -/
def step (first : UInt8) (rest : Bytes) : Char × Nat :=
  if first < 0x80 then (Char.ofNat first.toNat, 0)
  else if 0xC2 ≤ first && first ≤ 0xDF then
    match rest with
    | b :: _ =>
      if isContinuation b then (Char.ofNat (first.toNat % 32 * 64 + payload b), 1)
      else (replacement, 0)
    | [] => (replacement, 0)
  else if 0xE0 ≤ first && first ≤ 0xEF then
    match rest with
    | b :: more =>
      if mayFollow first b then
        match more with
        | c :: _ =>
          if isContinuation c then
            (Char.ofNat (first.toNat % 16 * 4096 + payload b * 64 + payload c), 2)
          else (replacement, 1)
        | [] => (replacement, 1)
      else (replacement, 0)
    | [] => (replacement, 0)
  else if 0xF0 ≤ first && first ≤ 0xF4 then
    match rest with
    | b :: more =>
      if mayFollow first b then
        match more with
        | c :: last =>
          if isContinuation c then
            match last with
            | d :: _ =>
              if isContinuation d then
                (Char.ofNat
                  (first.toNat % 8 * 262144 + payload b * 4096 + payload c * 64 + payload d), 3)
              else (replacement, 2)
            | [] => (replacement, 2)
          else (replacement, 1)
        | [] => (replacement, 1)
      else (replacement, 0)
    | [] => (replacement, 0)
  else (replacement, 0)

/-- Reads characters until the bytes end. -/
def repairFrom (done : List Char) : Bytes → List Char
  | [] => done.reverse
  | b :: rest =>
    let (c, used) := step b rest
    repairFrom (c :: done) (rest.drop used)
termination_by bytes => bytes.length
decreasing_by simp only [List.length_drop, List.length_cons]; omega

/-- **The text of any bytes**, with U+FFFD for what is not UTF-8. -/
def repair (bytes : Bytes) : String := String.ofList (repairFrom [] bytes)

end Utf8

end Remedy
