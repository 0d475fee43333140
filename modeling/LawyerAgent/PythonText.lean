import Mathlib.Data.List.DropRight

/-!
# Text

The methods of Python's `str` that the sources use, on the characters of a
text.
-/

set_option autoImplicit false

namespace LawyerAgent.PythonText

/-- `str.isspace` of one character. -/
def isSpace (c : Char) : Bool :=
  let n := c.toNat
  (9 ≤ n && n ≤ 13) || (28 ≤ n && n ≤ 32) || n == 0x85 || n == 0xa0 || n == 0x1680 ||
  (0x2000 ≤ n && n ≤ 0x200a) || n == 0x2028 || n == 0x2029 || n == 0x202f || n == 0x205f ||
  n == 0x3000

/-- The first characters of the runs of ten that `\d` matches. -/
def decimalZeros : List ℕ :=
  [0x30,0x660,0x6f0,0x7c0,0x966,0x9e6,0xa66,0xae6,0xb66,0xbe6,0xc66,0xce6,0xd66,0xde6,0xe50,0xed0,
    0xf20,0x1040,0x1090,0x17e0,0x1810,0x1946,0x19d0,0x1a80,0x1a90,0x1b50,0x1bb0,0x1c40,0x1c50,
    0xa620,0xa8d0,0xa900,0xa9d0,0xa9f0,0xaa50,0xabf0,0xff10,0x104a0,0x10d30,0x11066,0x110f0,0x11136,
    0x111d0,0x112f0,0x11450,0x114d0,0x11650,0x116c0,0x11730,0x118e0,0x11950,0x11c50,0x11d50,0x11da0,
    0x11f50,0x16a60,0x16ac0,0x16b50,0x1d7ce,0x1d7d8,0x1d7e2,0x1d7ec,0x1d7f6,0x1e140,0x1e2f0,0x1e4f0,
    0x1e950,0x1fbf0]

def isDecimal (c : Char) : Bool :=
  decimalZeros.any fun first => first ≤ c.toNat && c.toNat < first+10

def strip (text : List Char) : List Char := (text.dropWhile isSpace).rdropWhile isSpace

def stripString (text : String) : String := String.ofList (strip text.toList)

/-- The blanks that `strip` takes away at both ends. -/
theorem strip_split (text : List Char) : ∃ before after, text = before++(strip text++after) ∧
    (∀ c ∈ before, isSpace c = true) ∧ ∀ c ∈ after, isSpace c = true := by
  refine ⟨text.takeWhile isSpace,(text.dropWhile isSpace).rtakeWhile isSpace,?_,?_,?_⟩
  · rw [strip,List.rdropWhile_append_rtakeWhile,List.takeWhile_append_dropWhile]
  · exact fun c hc => List.mem_takeWhile_imp hc
  · exact fun c hc => List.mem_rtakeWhile_imp hc

theorem strip_head {text : List Char} (h : strip text ≠ []) :
    ∃ c rest, strip text = c::rest ∧ isSpace c = false := by
  obtain ⟨suffix,hsuffix⟩ := List.rdropWhile_prefix isSpace (text.dropWhile isSpace)
  obtain ⟨c,rest,hrest⟩ := List.exists_cons_of_ne_nil h
  refine ⟨c,rest,hrest,?_⟩
  have hdrop : text.dropWhile isSpace = c::(rest++suffix) := by
    rw [← hsuffix,← List.cons_append,← hrest]
    rfl
  have hhead := List.head?_dropWhile_not isSpace text
  rw [hdrop] at hhead
  exact hhead

end LawyerAgent.PythonText
