import Mathlib.Data.List.Basic

/-!
# Block codes

A block code writes every symbol as a word of one length and reads a word back.
A sequence of words is then read back without separators, the letter at any
place is known, and codes compose.
-/

/-- A code whose words have one length and read back. -/
structure BlockCode (α β : Type) where
  width : Nat
  word : α → List β
  read : List β → Option α
  length_word : ∀ symbol, (word symbol).length = width
  read_word : ∀ symbol, read (word symbol) = some symbol

namespace BlockCode

variable {α β γ : Type}

/-- The words of a sequence of symbols, one behind the other. -/
def encode (code : BlockCode α β) (symbols : List α) : List β :=
  symbols.flatMap code.word

/-- Read a number of words off the front of a sequence of letters. -/
def decode (code : BlockCode α β) : Nat → List β → Option (List α)
  | 0, _ => some []
  | count + 1, letters =>
      (code.read (letters.take code.width)).bind fun symbol =>
        (code.decode count (letters.drop code.width)).map (symbol :: ·)

theorem encode_cons (code : BlockCode α β) (symbol : α) (symbols : List α) :
    code.encode (symbol :: symbols) = code.word symbol ++ code.encode symbols :=
  List.flatMap_cons

theorem length_encode (code : BlockCode α β) (symbols : List α) :
    (code.encode symbols).length = code.width * symbols.length := by
  induction symbols with
  | nil => rfl
  | cons symbol rest induction =>
      rw [encode_cons, List.length_append, code.length_word, induction,
        List.length_cons, Nat.mul_add_one, Nat.add_comm]

/-- Words read back, whatever follows them. -/
theorem decode_encode_append (code : BlockCode α β) (symbols : List α)
    (letters : List β) :
    code.decode symbols.length (code.encode symbols ++ letters) =
      some symbols := by
  induction symbols with
  | nil => rfl
  | cons symbol rest induction =>
      have first : (code.encode (symbol :: rest) ++ letters).take code.width =
          code.word symbol := by
        rw [encode_cons, List.append_assoc,
          List.take_left' (code.length_word symbol)]
      have after : (code.encode (symbol :: rest) ++ letters).drop code.width =
          code.encode rest ++ letters := by
        rw [encode_cons, List.append_assoc,
          List.drop_left' (code.length_word symbol)]
      rw [List.length_cons, decode, first, after, code.read_word, induction]
      rfl

theorem decode_encode (code : BlockCode α β) (symbols : List α) :
    code.decode symbols.length (code.encode symbols) = some symbols := by
  have decoded := code.decode_encode_append symbols []
  rwa [List.append_nil] at decoded

/-- Sequences of one width of words differ where their symbols do. -/
theorem encode_injective (code : BlockCode α β) (wide : 0 < code.width) :
    Function.Injective code.encode := by
  intro first second same
  have lengths := congrArg List.length same
  rw [length_encode, length_encode] at lengths
  have counts := Nat.eq_of_mul_eq_mul_left wide lengths
  have decoded := code.decode_encode first
  rw [same, counts, code.decode_encode] at decoded
  exact (Option.some.inj decoded).symm

/-- The letter at a place of the word at a place. -/
theorem getElem?_encode (code : BlockCode α β) (symbols : List α)
    (index : Nat) {place : Nat} (inside : place < code.width) :
    (code.encode symbols)[code.width * index + place]? =
      symbols[index]?.bind fun symbol => (code.word symbol)[place]? := by
  induction symbols generalizing index with
  | nil => simp [encode]
  | cons symbol rest induction =>
      cases index with
      | zero =>
          rw [encode_cons, Nat.mul_zero, Nat.zero_add,
            List.getElem?_append_left (by rw [code.length_word]; exact inside)]
          rfl
      | succ index =>
          have behind : code.width * (index + 1) + place =
              code.width + (code.width * index + place) := by
            rw [Nat.mul_add_one]
            omega
          rw [encode_cons, behind, List.getElem?_append_right
            (by rw [code.length_word]; omega), code.length_word,
            Nat.add_sub_cancel_left, induction]
          rfl

/-- Write the letters of one code by another. -/
def comp (inner : BlockCode β γ) (outer : BlockCode α β) : BlockCode α γ where
  width := inner.width * outer.width
  word := fun symbol => inner.encode (outer.word symbol)
  read := fun letters => (inner.decode outer.width letters).bind outer.read
  length_word := fun symbol => by
    rw [length_encode, outer.length_word]
  read_word := fun symbol => by
    rw [← outer.length_word symbol, inner.decode_encode]
    exact outer.read_word symbol

theorem encode_comp (inner : BlockCode β γ) (outer : BlockCode α β)
    (symbols : List α) :
    (inner.comp outer).encode symbols = inner.encode (outer.encode symbols) := by
  simp [encode, comp, List.flatMap_assoc]

/-- A code that writes every symbol as one letter. -/
def ofLetter (write : α → β) (read : β → Option α)
    (reads : ∀ symbol, read (write symbol) = some symbol) :
    BlockCode α β where
  width := 1
  word := fun symbol => [write symbol]
  read := fun letters => letters.head?.bind read
  length_word := fun _ => rfl
  read_word := reads

end BlockCode
