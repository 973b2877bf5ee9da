/-!
# Lines of bytes

Input is a sequence of bytes.  A line runs up to and including its line feed; the
last one may lack it.  The text of a line is what stands before the line feed,
or before a carriage return directly in front of the line feed; it has a text
only if its bytes are valid UTF-8.
-/

namespace ReversePolish

/-- The byte that ends a line. -/
def lineFeed : UInt8 := 10

/-- The byte that may stand in front of a line feed. -/
def carriageReturn : UInt8 := 13

/-- One byte to the left of the lines that follow it. -/
def lineStep (b : UInt8) (lines : List (List UInt8)) : List (List UInt8) :=
  if b = lineFeed then [b] :: lines
  else
    match lines with
    | [] => [[b]]
    | line :: rest => (b :: line) :: rest

/-- The lines of an input, each with its line feed. -/
def byteLines (input : List UInt8) : List (List UInt8) := input.foldr lineStep []

/-- Nothing is lost between lines. -/
theorem flatten_byteLines (input : List UInt8) : (byteLines input).flatten = input := by
  induction input with
  | nil => rfl
  | cons b input ih =>
    have hcons : byteLines (b :: input) = lineStep b (byteLines input) := rfl
    rw [hcons]
    unfold lineStep
    split
    · simp [ih]
    · split
      · rename_i h
        rw [h] at ih
        simp_all
      · rename_i h
        rw [h] at ih
        simp_all

/-- Bytes behind a line feed begin a line of their own. -/
theorem byteLines_append_lineFeed (a b : List UInt8) :
    byteLines (a ++ lineFeed :: b) = byteLines (a ++ [lineFeed]) ++ byteLines b := by
  have hcons : ∀ (c : UInt8) (l : List UInt8), byteLines (c :: l) = lineStep c (byteLines l) :=
    fun _ _ => rfl
  induction a with
  | nil => simp [lineStep, byteLines]
  | cons c a ih =>
    rw [List.cons_append, List.cons_append, hcons, hcons, ih]
    cases h : byteLines (a ++ [lineFeed]) with
    | nil =>
      have := flatten_byteLines (a ++ [lineFeed])
      rw [h] at this
      simp at this
    | cons line rest =>
      unfold lineStep
      split <;> rfl

/-- The bytes of a line in front of its end. -/
def lineBody (line : List UInt8) : List UInt8 :=
  match line.reverse with
  | b :: rest =>
    if b = lineFeed then
      match rest with
      | c :: rest' => if c = carriageReturn then rest'.reverse else rest.reverse
      | [] => []
    else line
  | [] => []

/-- The text of a line, if it is valid UTF-8. -/
def lineText? (line : List UInt8) : Option String :=
  String.fromUTF8? ⟨(lineBody line).toArray⟩

end ReversePolish
