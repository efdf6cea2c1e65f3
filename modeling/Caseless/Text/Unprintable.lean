import Caseless.Text.Extending
import Caseless.Text.Unassigned

/-!
# Characters without a shape of their own

Text that is shown to people has to show everything that is in it, so characters that print as
nothing, or that merge with their neighbours, are not shown as they are.

Main definition: `isUnprintable`.

Main result: `isUnprintable_eq_false`, the printable ASCII characters are shown as they are.
-/

namespace Caseless
namespace Text

/-- Controls, blanks and line separators, format characters and private use, as ascending ranges:
the general categories `Cc`, `Cf`, `Co`, `Zl`, `Zp` and `Zs` of Unicode 17.0, with the space among
the blanks. -/
def invisibleRanges : List (Nat × Nat) :=
  [(0x0, 0x20), (0x7F, 0xA0), (0xAD, 0xAD), (0x600, 0x605), (0x61C, 0x61C), (0x6DD, 0x6DD),
    (0x70F, 0x70F), (0x890, 0x891), (0x8E2, 0x8E2), (0x1680, 0x1680), (0x180E, 0x180E),
    (0x2000, 0x200F), (0x2028, 0x202F), (0x205F, 0x2064), (0x2066, 0x206F), (0x3000, 0x3000),
    (0xE000, 0xF8FF), (0xFEFF, 0xFEFF), (0xFFF9, 0xFFFB), (0x110BD, 0x110BD), (0x110CD, 0x110CD),
    (0x13430, 0x1343F), (0x1BCA0, 0x1BCA3), (0x1D173, 0x1D17A), (0xE0001, 0xE0001),
    (0xE0020, 0xE007F), (0xF0000, 0xFFFFD), (0x100000, 0x10FFFD)]

/-- Letters that stand for nothing and are drawn as nothing: the fillers of Hangul syllables, which
are the letters with the property `Default_Ignorable_Code_Point`. -/
def fillerRanges : List (Nat × Nat) :=
  [(0x115F, 0x1160), (0x3164, 0x3164), (0xFFA0, 0xFFA0)]

/-- Whether a character is not shown as it is.  Of the blanks only the space is. -/
def isUnprintable (c : Char) : Bool :=
  c != ' ' &&
    (inRanges c.toNat invisibleRanges || inRanges c.toNat fillerRanges || isExtending c ||
      isUnassigned c)

/-- Printable ASCII characters lie below every other range of the tables. -/
theorem isUnprintable_eq_false {c : Char} (hlow : 0x20 ≤ c.toNat) (hhigh : c.toNat ≤ 0x7E) :
    isUnprintable c = false := by
  by_cases hspace : c = ' '
  · subst hspace
    rfl
  · have hne : c.toNat ≠ 0x20 := fun h => hspace (Char.toNat_inj.mp h)
    have hinvisible : inRanges c.toNat invisibleRanges = false := by
      have hcontrol : ¬ c.toNat ≤ 0x20 := by omega
      have hdelete : c.toNat < 0x7F := by omega
      simp [invisibleRanges, inRanges, hcontrol, hdelete]
    have hfiller : inRanges c.toNat fillerRanges = false :=
      inRanges_cons_of_lt (show c.toNat < 0x115F by omega)
    have hextending : isExtending c = false :=
      inRanges_cons_of_lt (show c.toNat < 0x300 by omega)
    have hunassigned : isUnassigned c = false :=
      inRanges_cons_of_lt (show c.toNat < 0x378 by omega)
    simp [isUnprintable, hinvisible, hfiller, hextending, hunassigned]

end Text
end Caseless
