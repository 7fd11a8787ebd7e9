import Chip8.Number.Binary64
import Chip8.Tally

/-!
# Statistics panel

How often each operation was executed, the most frequent ones first, with shares of the total, and
then the sums over the categories of operations.
-/

-- the empty sum is the zero of the number type itself
attribute [local instance (high)] Zero.ofOfNat0

namespace Chip8

/-- What an operation is about. -/
inductive Category where
  | flow
  | alu
  | memory
  | display
  | io
  | other
  deriving Repr, DecidableEq

namespace Category

/-- The categories in the order in which they are shown. -/
def all : List Category := [.flow, .alu, .memory, .display, .io, .other]

/-- The name of a category. -/
def label : Category → String
  | flow => "Flow"
  | alu => "ALU"
  | memory => "Memory"
  | display => "Display"
  | io => "I/O"
  | other => "Other"

/-- The category of an operation. -/
def ofOperation : Operation → Category
  | .nop | .jump | .jumpOffset | .call | .ret => flow
  | .skipIfByte | .skipUnlessByte | .skipIfEqual | .skipUnlessEqual => flow
  | .loadByte | .addByte | .random | .alu _ => alu
  | .loadIndex | .addIndex | .loadGlyph => memory
  | .storeDecimal | .storeRegisters | .loadRegisters => memory
  | .clearScreen | .draw => display
  | .skipIfKey | .skipUnlessKey | .awaitKey => io
  | .readDelay | .setDelay | .setSound => io

/-- The category of a mnemonic; a name that no operation has is of the last category. -/
def ofMnemonic (name : String) : Category :=
  match Operation.ofMnemonic? name with
  | some op => ofOperation op
  | none => other

end Category

namespace Panel

/-- A name with its count. -/
abbrev Entry := String × Int

/-- The entries of a machine's tally. -/
def entriesOf (t : Tally) : List Entry := t.map fun (op, n) => (op.mnemonic, (n : Int))

/-- Why there is no table. -/
inductive StatisticsError where
  /-- No entry is to be listed. -/
  | nothingListed
  /-- The counts add up to zero, so there are no shares. -/
  | zeroTotal
  /-- A share has no value. -/
  | share (cause : NumberError)
  /-- A count or a sum of counts is too long to be written. -/
  | unwritable
  deriving Repr, DecidableEq

/-- The sum of the counts. -/
def totalOf (entries : List Entry) : Int := (entries.map (·.2)).sum

/-- The entries by falling count, those of equal count in their old order. -/
def ranked (entries : List Entry) : List Entry := entries.mergeSort fun a b => decide (b.2 ≤ a.2)

/-- How many of `count` entries a limit admits; a limit below zero counts back from the end. -/
def listedCount (count : Nat) (limit : Int) : Nat :=
  if limit < 0 then (count + limit).toNat else limit.toNat

/-- A count as a percentage of a total. -/
def percentage (count total : Int) : Except StatisticsError Binary64 :=
  if total = 0 then .error .zeroTotal
  else
    match Binary64.ratio count total with
    | .error e => .error (.share e)
    | .ok share => .ok (share.mul (Binary64.ofUnits false (100 * Binary64.unitsPerOne) 1))

/-- A count grouped by thousands, filled up to a width. -/
def countText (width : Nat) (count : Int) : Except StatisticsError String :=
  if Numeral.isWritable count then .ok (decimalGrouped width count) else .error .unwritable

/-- The line of an entry: the name filled up to a width, the count, and the share with one place. -/
def entryLine (width : Nat) (total : Int) (e : Entry) : Except StatisticsError String := do
  let share ← percentage e.2 total
  let count ← countText 8 e.2
  return String.ofList (Numeral.padRight width e.1.toList) ++ " " ++ count ++
    " (" ++ String.ofList (Numeral.padLeft 5 (share.fixed 1)) ++ "%)"

/-- The entries of a category. -/
def entriesIn (c : Category) (entries : List Entry) : List Entry :=
  entries.filter fun e => Category.ofMnemonic e.1 = c

/-- The categories that some entry has, each with the sum of its counts. -/
def categoryTotals (entries : List Entry) : List (Category × Int) :=
  Category.all.filterMap fun c =>
    match entriesIn c entries with
    | [] => none
    | own => some (c, totalOf own)

/-- The line of a category, its share without places. -/
def categoryLine (total : Int) (c : Category × Int) : Except StatisticsError String := do
  let share ← percentage c.2 total
  let count ← countText 0 c.2
  return c.1.label ++ ": " ++ count ++ " (" ++ String.ofList (share.fixed 0) ++ "%)"

/-- The entries that are listed one by one, and those that are not. -/
structure Ranking where
  listed : List Entry
  rest : List Entry
  deriving Repr, DecidableEq

/-- Divides the entries at a limit. -/
def rankingOf (entries : List Entry) (limit : Int) : Ranking :=
  let sorted := ranked entries
  let n := listedCount sorted.length limit
  ⟨sorted.take n, sorted.drop n⟩

/-- The entry that stands for those not listed; there is one if the entries outnumber the limit. -/
def restEntry (entries : List Entry) (limit : Int) : List Entry :=
  if limit < entries.length then [("...", totalOf (rankingOf entries limit).rest)] else []

/-- The lines of the statistics panel. -/
def statisticsLines (entries : List Entry) (limit : Int) : Except StatisticsError (List String) :=
  if entries.isEmpty then .ok ["No instructions executed."]
  else do
    let total := totalOf entries
    let listed := (rankingOf entries limit).listed
    let sum ← countText 0 total
    match (listed.map fun e => e.1.length).max? with
    | none => .error .nothingListed
    | some width =>
      let top ← (listed ++ restEntry entries limit).mapM (entryLine width total)
      let bottom ← (categoryTotals entries).mapM (categoryLine total)
      return ("Total: " ++ sum) :: top ++ "" :: bottom

/-- The text of the statistics panel. -/
def statisticsText (entries : List Entry) (limit : Int) : Except StatisticsError String :=
  match statisticsLines entries limit with
  | .error e => .error e
  | .ok lines => .ok ("\n".intercalate lines)

end Panel
end Chip8
