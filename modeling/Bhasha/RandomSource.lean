/-!
# Random numbers

A random source is a sequence of numbers fixed beforehand and the place reached in it, so a run
is determined by its source.
-/

namespace Bhasha

/-- A sequence of numbers and how many of them have been taken. -/
structure RandomSource where
  sample : Nat → Float
  taken : Nat := 0

namespace RandomSource

/-- The number that is drawn next. -/
def next (source : RandomSource) : Float :=
  source.sample source.taken

/-- The source after one draw. -/
def advance (source : RandomSource) : RandomSource :=
  { source with taken := source.taken + 1 }

/-- Spreads the bits of a word. -/
def mix (word : UInt64) : UInt64 :=
  let word := (word ^^^ (word >>> 30)) * 0xBF58476D1CE4E5B9
  let word := (word ^^^ (word >>> 27)) * 0x94D049BB133111EB
  word ^^^ (word >>> 31)

/-- The source of a seed: numbers from zero up to, but not including, one. -/
def ofSeed (seed : UInt64) : RandomSource where
  sample index :=
    (mix (seed + (index + 1).toUInt64 * 0x9E3779B97F4A7C15) >>> 11).toFloat / 9007199254740992

end RandomSource

end Bhasha
