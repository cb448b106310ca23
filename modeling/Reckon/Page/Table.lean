import Reckon.Page.Wrap

/-! # Tables

A title over a framed grid. A column is as wide as its widest cell, or as its least width; a cell of
several lines makes its row taller.
-/
namespace Reckon.Page
set_option autoImplicit false
open Text (columns splitOn)

inductive Alignment
  | left | right | center
  deriving DecidableEq, Repr

structure Column where
  header : String
  alignment : Alignment := .left
  leastWidth : Nat := 0

structure Table where
  title : String
  columns : List Column
  rows : List (List (List Char))

def align (limit : Nat) : Alignment → List Char → List Char
  | .left, line =>
    let line := shorten .ellipsis limit line
    line ++ blanks (limit - columns line)
  | .right, line =>
    let line := shorten .ellipsis limit (trimRight line)
    blanks (limit - columns line) ++ line
  | .center, line =>
    let line := shorten .ellipsis limit (trimRight line)
    let room := limit - columns line
    blanks (room / 2) ++ line ++ blanks (room - room / 2)

/-- Line ends of every kind count where a cell is measured. -/
def isLineEnd (c : Char) : Bool :=
  [0x0A, 0x1C, 0x1D, 0x1E, 0x85, 0x2028, 0x2029].contains c.toNat

def widest (text : List Char) : Nat :=
  ((splitOn isLineEnd (printed text)).map columns).foldl max 0

def Column.width (column : Column) (cells : List (List Char)) : Nat :=
  (cells.map widest).foldl max (max column.leastWidth (widest column.header.toList))

def cellLines (limit : Nat) (alignment : Alignment) (cell : List Char) : List (List Char) :=
  (breakText .ellipsis limit cell).map fun line => ' ' :: (align limit alignment line ++ [' '])

/-- A horizontal rule or the frame of a row: what stands left, between and right of the cells. -/
structure Edges where
  left : Char
  inner : Char
  right : Char

def Edges.join (edges : Edges) (cells : List (List Char)) : List Char :=
  edges.left :: (List.intercalate [edges.inner] cells ++ [edges.right])

def rule (edges : Edges) (stroke : Char) (widths : List Nat) : List Char :=
  edges.join (widths.map fun w => List.replicate (w + 2) stroke)

/-- The lines of a row, with blanks under the cells that end early. -/
def rowLines (edges : Edges) (widths : List Nat) (cells : List (List (List Char))) :
    List (List Char) :=
  let height := (cells.map List.length).foldl max 1
  (List.range height).map fun i =>
    edges.join ((widths.zip cells).map fun (w, lines) => lines.getD i (blanks (w + 2)))

namespace Table

def widths (t : Table) : List Nat :=
  t.columns.zipIdx.map fun (column, i) => column.width (t.rows.map fun row => row.getD i [])

def row (t : Table) (edges : Edges) (cells : List (List Char)) : List (List Char) :=
  rowLines edges t.widths
    ((t.columns.zip (t.widths.zip cells)).map fun (column, w, cell) =>
      cellLines w column.alignment cell)

def lines (t : Table) : List (List Char) :=
  let frame := rule ⟨'┏', '┳', '┓'⟩ '━' t.widths
  (wrap frame.length t.title.toList).map (align frame.length .center) ++
    [frame] ++
    t.row ⟨'┃', '┃', '┃'⟩ (t.columns.map fun column => column.header.toList) ++
    [rule ⟨'┡', '╇', '┩'⟩ '━' t.widths] ++
    t.rows.flatMap (t.row ⟨'│', '│', '│'⟩) ++
    [rule ⟨'└', '┴', '┘'⟩ '─' t.widths]

end Table
end Reckon.Page
