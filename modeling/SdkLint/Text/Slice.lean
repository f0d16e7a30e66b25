/-!
# Byte ranges of a source text

Positions in a source are byte offsets of its UTF-8 form.  `slice` reads the text between two of
them; a range that is reversed, leaves the source or cuts a character in two holds no text.
-/

namespace SdkLint.Text

/-- The text between the byte offsets `start` and `stop`, empty unless both are character
boundaries of `s` with `start ≤ stop`. -/
def slice (s : String) (start stop : Nat) : String :=
  if h : (String.Pos.Raw.mk start).IsValid s ∧ (String.Pos.Raw.mk stop).IsValid s ∧
      start ≤ stop then
    s.extract ⟨⟨start⟩, h.1⟩ ⟨⟨stop⟩, h.2.1⟩
  else ""

end SdkLint.Text
