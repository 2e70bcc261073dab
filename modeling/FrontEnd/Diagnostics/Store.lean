import FrontEnd.Diagnostic

/-!
# Lists of diagnostics that share memory

A list held by a variable is a window on a block of memory: it shows the first
`length` entries of a block that has room for `capacity` of them.  Copying a variable
copies the window and not the block.  A list grows in place while its block has room,
and moves to a larger block of its own when the block is full.

Variables that show the same block therefore see each other's writes to the entries
they have in common: this module is the exact account of what a variable shows after
any sequence of operations.
-/

namespace FrontEnd

namespace Diagnostics

/-- A window on a block of memory. -/
structure Window where
  block : Nat
  length : Nat
  capacity : Nat
  deriving DecidableEq, Repr, Inhabited

/-- Blocks of memory, and the windows that variables hold on them. -/
structure Store where
  /-- The entries written to each block so far. -/
  blocks : List (List Diagnostic)
  /-- The variables and their windows. -/
  windows : List (String × Window)
  deriving Repr

namespace Store

/-- A store without variables.  Block 0 has no room and is the block of empty lists. -/
def empty : Store := ⟨[[]], []⟩

/-- The size of one entry in memory. -/
def entrySize : Nat := 32

/-- The sizes in which small blocks are handed out. -/
def blockSizes : List Nat :=
  [8, 16, 24, 32, 48, 64, 80, 96, 112, 128, 144, 160, 176, 192, 208, 224, 240, 256, 288,
    320, 352, 384, 416, 448, 480, 512, 576, 640, 704, 768, 896, 1024, 1152, 1280, 1408,
    1536, 1792, 2048, 2304, 2688, 3072, 3200, 3456, 4096, 4864, 5120, 5376, 6144, 6528,
    6784, 6912, 8192, 9472, 9728, 10240, 10880, 12288, 13568, 14336, 16384, 18432, 19072,
    20480, 21760, 24576, 27264, 28672, 32768]

/-- The number of usable bytes in the block handed out for `size` bytes.  Blocks for more
than 512 bytes start with a header of 8 bytes; from 32760 bytes on, blocks are whole
pages of 8192 bytes and have none. -/
def usableSize (size : Nat) : Nat :=
  if size ≤ 512 then (blockSizes.find? (size ≤ ·)).getD size
  else if size ≤ 32760 then (blockSizes.find? (size + 8 ≤ ·)).getD size - 8
  else (size + 8191) / 8192 * 8192

/-- Capacities from 256 on grow by a quarter, and a bit more, until `needed` entries fit. -/
def growGently (needed capacity : Nat) : Nat :=
  if h : needed ≤ capacity then capacity
  else growGently needed (capacity + (capacity + 768) / 4)
termination_by needed - capacity
decreasing_by omega

/-- The capacity a list asks for when `needed` entries do not fit its present one. -/
def requestedCapacity (needed capacity : Nat) : Nat :=
  if 2 * capacity < needed then needed
  else if capacity < 256 then 2 * capacity
  else growGently needed (capacity + (capacity + 768) / 4)

/-- The capacity of the block a list moves to when `needed` entries do not fit. -/
def grownCapacity (needed capacity : Nat) : Nat :=
  usableSize (requestedCapacity needed capacity * entrySize) / entrySize

/-- The window of a variable; a variable that was never set holds an empty list. -/
def window (s : Store) (name : String) : Window :=
  (s.windows.lookup name).getD ⟨0, 0, 0⟩

/-- Lets a variable hold a window. -/
def setWindow (s : Store) (name : String) (w : Window) : Store :=
  { s with windows := (name, w) :: s.windows.filter (·.1 != name) }

/-- The entries a window shows. -/
def view (s : Store) (w : Window) : List Diagnostic :=
  (s.blocks.getD w.block []).take w.length

/-- The entries the list of a variable holds. -/
def contents (s : Store) (name : String) : List Diagnostic := s.view (s.window name)

/-- A block after `entries` were written to it from position `at` on. -/
def overwrite (block : List Diagnostic) (position : Nat) (entries : List Diagnostic) :
    List Diagnostic :=
  block.take position ++ entries ++ block.drop (position + entries.length)

/-- Writes entries behind those of a variable's list: in place if its block has room, and
else to a new block that starts with a copy of the list. -/
def extend (s : Store) (name : String) (entries : List Diagnostic) : Store :=
  let w := s.window name
  let needed := w.length + entries.length
  if needed ≤ w.capacity then
    let block := overwrite (s.blocks.getD w.block []) w.length entries
    { s with blocks := s.blocks.set w.block block }.setWindow name
      { w with length := needed }
  else
    { s with blocks := s.blocks ++ [s.view w ++ entries] }.setWindow name
      ⟨s.blocks.length, needed, grownCapacity needed w.capacity⟩

/-- Adds a diagnostic behind those of a variable's list. -/
def add (s : Store) (name : String) (d : Diagnostic) : Store := s.extend name [d]

/-- Adds the diagnostics of the list of `source` behind those of the list of `name`. -/
def append (s : Store) (name source : String) : Store := s.extend name (s.contents source)

/-- Lets `name` hold the list that `source` holds. -/
def copy (s : Store) (name source : String) : Store := s.setWindow name (s.window source)

/-- Lets a variable hold an empty list without a block. -/
def reset (s : Store) (name : String) : Store := s.setWindow name ⟨0, 0, 0⟩

/-- The entry at a place in the list of a variable, counted from zero. -/
def entry? (s : Store) (name : String) (i : Int) : Option Diagnostic :=
  if i < 0 then none else (s.contents name)[i.toNat]?

end Store

end Diagnostics

end FrontEnd
