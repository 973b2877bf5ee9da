/-!
# Two notions of blank

The words of an expression are separated by gaps: six characters of ASCII, and no
others.  A no-break space is an ordinary letter of a name.  A command line, on
the other hand, is trimmed and cut into arguments at every character with the
Unicode property `White_Space`.  The second class contains the first, and the
difference shows, so each has its own name.
-/

namespace ReversePolish

/-- The characters that separate the words of an expression: space, tab, line
feed, vertical tab, form feed and carriage return. -/
def isGap (c : Char) : Bool :=
  c = ' ' || c = '\t' || c = '\n' || c = '\x0b' || c = '\x0c' || c = '\r'

/-- The characters with the Unicode property `White_Space`. -/
def isBlank (c : Char) : Bool :=
  let n := c.toNat
  (0x09 ≤ n && n ≤ 0x0d) || n = 0x20 || n = 0x85 || n = 0xa0 || n = 0x1680 ||
    (0x2000 ≤ n && n ≤ 0x200a) || n = 0x2028 || n = 0x2029 || n = 0x202f ||
    n = 0x205f || n = 0x3000

/-- Every gap is blank. -/
theorem isBlank_of_isGap {c : Char} (h : isGap c) : isBlank c := by
  simp only [isGap, Bool.or_eq_true, decide_eq_true_eq] at h
  rcases h with ((((rfl | rfl) | rfl) | rfl) | rfl) | rfl <;> decide

end ReversePolish
