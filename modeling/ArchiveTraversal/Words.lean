/-!
The bounds of the machine's words: what a signed or unsigned number of 32 or 64 bits stays below.
-/

namespace ArchiveTraversal

/-- Two to the 31st power. -/
def signed32Bound : Int := 2147483648

/-- Two to the 63rd power. -/
def signed64Bound : Int := 9223372036854775808

/-- Two to the 64th power. -/
def unsigned64Bound : Nat := 18446744073709551616

end ArchiveTraversal
