/-!
# Bytes and words

Everything on the wire is a list of bytes. A word is 32 bits wide and is stored and sent with its
least significant byte first.
-/

namespace DebugMonitor

abbrev Bytes := List UInt8

namespace Word

/-- The four bytes of a word, least significant first. -/
def toBytes (word : UInt32) : Bytes :=
  [word.toUInt8, (word >>> 8).toUInt8, (word >>> 16).toUInt8, (word >>> 24).toUInt8]

/-- The word of the given bytes. Bytes past the fourth are shifted out. -/
def ofBytes : Bytes → UInt32
  | [] => 0
  | b :: rest => b.toUInt32 ||| ofBytes rest <<< 8

end Word

end DebugMonitor
