/-!
# Bounds of words

Widths, counters and coordinates are words of 32 bits; indices and the digits of a number are kept
in words of 64 bits. Each bound is one more than the largest word of its kind.
-/

namespace BlockSchematic.WordBound

/-- Two to the 32nd. -/
def unsigned32 : Nat := 4294967296

/-- Two to the 64th. -/
def unsigned64 : Nat := 18446744073709551616

/-- Two to the 31st; the least signed word is its negative. -/
def signed32 : Nat := 2147483648

/-- Two to the 63rd; the least signed word is its negative. -/
def signed64 : Nat := 9223372036854775808

end BlockSchematic.WordBound
