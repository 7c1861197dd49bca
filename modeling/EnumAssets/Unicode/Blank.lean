/-
# White space and control characters

The code points with the property White_Space, and those of general category Cc.
-/
import EnumAssets.Unicode.CharSet

namespace EnumAssets.Unicode

/-- Characters with the property White_Space. -/
def whiteSpace : CharSet :=
  ⟨[(0x9, 0xD), (0x20, 0x20), (0x85, 0x85), (0xA0, 0xA0), (0x1680, 0x1680), (0x2000, 0x200A),
    (0x2028, 0x2029), (0x202F, 0x202F), (0x205F, 0x205F), (0x3000, 0x3000)]⟩

/-- Control characters: general category Cc, that is U+0000 to U+001F and U+007F to U+009F. -/
def control : CharSet :=
  ⟨[(0x0, 0x1F), (0x7F, 0x9F)]⟩

end EnumAssets.Unicode
