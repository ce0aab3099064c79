/-!
Characters and texts.

* `Text.Ranges` — sets of characters, as ascending lists of closed ranges of code points, with a
  membership test that ends at the first range past the character;
* `Text.isBlank` — white space: the code points with the Unicode property `White_Space`;
* `byteLength`, `utf8`, `ofUtf8?` — texts as bytes.
-/

namespace SmallScheme

namespace Text

/-- Ascending and disjoint closed ranges of code points. -/
abbrev Ranges := List (Nat × Nat)

/-- Some range of the list holds `n`; as the ranges ascend, the search ends at the first one
that starts past `n`. -/
def Ranges.holds : Ranges → Nat → Bool
  | [], _ => false
  | (lo, hi) :: rest, n => if n < lo then false else decide (n ≤ hi) || Ranges.holds rest n

/-! ## white space -/

/-- The code points with the property `White_Space`. -/
def blank : Ranges :=
  [(0x9, 0xD), (0x20, 0x20), (0x85, 0x85), (0xA0, 0xA0), (0x1680, 0x1680), (0x2000, 0x200A),
   (0x2028, 0x2029), (0x202F, 0x202F), (0x205F, 0x205F), (0x3000, 0x3000)]

def isBlank (c : Char) : Bool := blank.holds c.toNat

/-- The text without the white space at its two ends. -/
def trim (s : String) : String :=
  String.ofList ((s.toList.dropWhile isBlank).reverse.dropWhile isBlank).reverse

end Text

/-! ## bytes -/

def byteLength (text : List Char) : Nat := text.foldr (fun c n => c.utf8Size + n) 0

@[simp]
theorem byteLength_nil : byteLength [] = 0 := rfl

@[simp]
theorem byteLength_cons (c : Char) (cs : List Char) :
    byteLength (c :: cs) = c.utf8Size + byteLength cs := rfl

@[simp]
theorem byteLength_append (a b : List Char) :
    byteLength (a ++ b) = byteLength a + byteLength b := by
  induction a with
  | nil => simp
  | cons c cs ih => rw [List.cons_append, byteLength_cons, byteLength_cons, ih, Nat.add_assoc]

def utf8 (text : String) : List UInt8 := text.toUTF8.data.toList

theorem utf8_append (s t : String) : utf8 (s ++ t) = utf8 s ++ utf8 t := by
  simp [utf8, String.toUTF8_eq_toByteArray, String.toByteArray_append]

/-- The text that some bytes spell, if they spell one. -/
def ofUtf8? (bytes : List UInt8) : Option String := String.fromUTF8? ⟨bytes.toArray⟩

end SmallScheme
