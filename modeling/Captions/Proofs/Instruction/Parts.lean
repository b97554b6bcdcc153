import Captions.Instruction

/-!
# Waits and Blocks

The two kinds of instructions in a list, each on its own.

Everything that is computed of a list of instructions looks at one kind. The
length of a timeline is a sum over the delays and the number of blocks shown is
a count, although the functions that compute them walk over both kinds. Here
each of them is said to be what it is of the delays or of the blocks alone.

## Main definitions

* `delay?`, `block?`: What is waited for, or shown.
* `length`: The number of seconds in an instruction.
* `delays`: The delays of instructions.

## Theorems

* `totalAfter_eq_foldlM`: The length of a timeline is a sum over its delays.
* `shownCount_eq_length`, `shownCount_append`: The number of blocks shown.
-/

namespace Captions

namespace Instruction

/-- The delay that an instruction waits for. -/
def delay? : Instruction → Option Number
  | .wait delay => some delay
  | .showText _ => none

/-- The block that an instruction shows. -/
def block? : Instruction → Option Block
  | .wait _ => none
  | .showText b => some b

/-- How long an instruction waits or shows its block. -/
def length : Instruction → Number
  | .wait delay => delay
  | .showText b => b.duration

/-- The delays of instructions, in their order. -/
def delays (is : List Instruction) : List Number := is.filterMap delay?

theorem delays_wait (d : Number) (is : List Instruction) :
    delays (.wait d :: is) = d :: delays is := rfl

theorem delays_showText (b : Block) (is : List Instruction) :
    delays (.showText b :: is) = delays is := rfl

theorem mem_delays (is : List Instruction) (d : Number) : d ∈ delays is ↔ .wait d ∈ is := by
  rw [delays, List.mem_filterMap]
  constructor
  · rintro ⟨i, hi, hd⟩
    cases i with
    | wait delay =>
        rw [delay?, Option.some.injEq] at hd
        rwa [← hd]
    | showText b => exact absurd hd.symm (Option.some_ne_none d)
  · intro h
    exact ⟨.wait d, h, rfl⟩

/-- The length of a timeline is the sum of its delays, from left to right. -/
theorem totalAfter_eq_foldlM (is : List Instruction) :
    ∀ sum, totalAfter sum is = (delays is).foldlM Number.add sum := by
  induction is with
  | nil => intro sum; rfl
  | cons i is ih =>
      intro sum
      cases i with
      | wait delay =>
          rw [totalAfter, delays_wait, List.foldlM_cons]
          exact bind_congr fun next => ih next
      | showText b =>
          rw [totalAfter, delays_showText]
          exact ih sum

theorem shownCount_eq_length (is : List Instruction) :
    shownCount is = (is.filterMap block?).length := by
  induction is with
  | nil => rfl
  | cons i is ih =>
      cases i with
      | wait delay => exact ih
      | showText b => exact congrArg (· + 1) ih

theorem shownCount_append (xs ys : List Instruction) :
    shownCount (xs ++ ys) = shownCount xs + shownCount ys := by
  rw [shownCount_eq_length, shownCount_eq_length, shownCount_eq_length, List.filterMap_append,
    List.length_append]

end Instruction

end Captions
