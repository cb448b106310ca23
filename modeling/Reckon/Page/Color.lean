import Reckon.Decimal
import Reckon.Text.Case
import Reckon.Text.DecimalDigit
import Reckon.Text.Split

/-! # Colours by name

A colour has a name of its own, or is given by six hexadecimal digits behind `#`, by its place on a
palette or by its shares of red, green and blue, none of them above 255.
-/
namespace Reckon.Page
set_option autoImplicit false
open Text (digitValue?)

def hues : List String :=
  ["black", "red", "green", "yellow", "blue", "magenta", "cyan", "white"]

/-- How light the greys of the palette are, in hundredths. -/
def greyLevels : List Nat :=
  [0, 3, 7, 11, 15, 19, 23, 27, 30, 35, 37, 39, 42, 46, 50, 53, 54, 58, 62, 63, 66, 69, 70, 74, 78,
   82, 84, 85, 89, 93, 100]

def shades : List String :=
  [
   "navy_blue", "dark_blue", "blue3", "blue1", "dark_green", "deep_sky_blue4", "dodger_blue3",
   "dodger_blue2", "green4", "spring_green4", "turquoise4", "deep_sky_blue3", "dodger_blue1",
   "dark_cyan", "light_sea_green", "deep_sky_blue2", "deep_sky_blue1", "green3", "spring_green3",
   "cyan3", "dark_turquoise", "turquoise2", "green1", "spring_green2", "spring_green1",
   "medium_spring_green", "cyan2", "cyan1", "purple4", "purple3", "blue_violet", "medium_purple4",
   "slate_blue3", "royal_blue1", "chartreuse4", "pale_turquoise4", "steel_blue", "steel_blue3",
   "cornflower_blue", "dark_sea_green4", "cadet_blue", "sky_blue3", "chartreuse3", "sea_green3",
   "aquamarine3", "medium_turquoise", "steel_blue1", "sea_green2", "sea_green1",
   "dark_slate_gray2", "dark_red", "dark_magenta", "orange4", "light_pink4", "plum4",
   "medium_purple3", "slate_blue1", "wheat4", "light_slate_grey", "light_slate_gray",
   "medium_purple", "light_slate_blue", "yellow4", "dark_sea_green", "light_sky_blue3",
   "sky_blue2", "chartreuse2", "pale_green3", "dark_slate_gray3", "sky_blue1", "chartreuse1",
   "light_green", "aquamarine1", "dark_slate_gray1", "deep_pink4", "medium_violet_red",
   "dark_violet", "purple", "medium_orchid3", "medium_orchid", "dark_goldenrod", "rosy_brown",
   "medium_purple2", "medium_purple1", "dark_khaki", "navajo_white3", "light_steel_blue3",
   "light_steel_blue", "dark_olive_green3", "dark_sea_green3", "light_cyan3", "light_sky_blue1",
   "green_yellow", "dark_olive_green2", "pale_green1", "dark_sea_green2", "pale_turquoise1",
   "red3", "deep_pink3", "magenta3", "dark_orange3", "indian_red", "hot_pink3", "hot_pink2",
   "orchid", "orange3", "light_salmon3", "light_pink3", "pink3", "plum3", "violet", "gold3",
   "light_goldenrod3", "tan", "misty_rose3", "thistle3", "plum2", "yellow3", "khaki3",
   "light_yellow3", "light_steel_blue1", "yellow2", "dark_olive_green1", "dark_sea_green1",
   "honeydew2", "light_cyan1", "red1", "deep_pink2", "deep_pink1", "magenta2", "magenta1",
   "orange_red1", "indian_red1", "hot_pink", "medium_orchid1", "dark_orange", "salmon1",
   "light_coral", "pale_violet_red1", "orchid2", "orchid1", "orange1", "sandy_brown",
   "light_salmon1", "light_pink1", "pink1", "plum1", "gold1", "light_goldenrod2", "navajo_white1",
   "misty_rose1", "thistle1", "yellow1", "light_goldenrod1", "khaki1", "wheat1", "cornsilk1"]

def colorNames : List String :=
  "default" :: hues ++ hues.map ("bright_" ++ ·) ++
    greyLevels.flatMap (fun n => ["grey" ++ toString n, "gray" ++ toString n]) ++ shades

inductive StyleFlaw
  | unknownWord
  | emptyShare
  deriving DecidableEq, Repr

def StyleFlaw.check (ok : Bool) : Except StyleFlaw Unit := if ok then .ok () else .error .unknownWord

/-- What stands between a word with an opening bracket and the closing bracket at the end. -/
def enclosed? (opening : String) (text : List Char) : Option (List Char) := do
  let inner ← opening.toList.isPrefixOf? text
  if inner.getLast? = some ')' then some inner.dropLast else none

def isHexDigit (c : Char) : Bool := c.isDigit || (97 ≤ c.toNat && c.toNat ≤ 102)

def share (digits : List Char) : Nat := Decimal.digitsValue (digits.filterMap digitValue?)

def largestShare : Nat := 255

def isPaletteNumber (digits : List Char) : Bool :=
  0 < digits.length && digits.length ≤ 3 && digits.all Char.isDigit && share digits ≤ largestShare

/-- Three shares between commas; a missing one is noticed before one that is too large. -/
def checkShares (text : List Char) : Except StyleFlaw Unit := do
  StyleFlaw.check (text.all fun c => c = ',' || (digitValue? c).isSome)
  let shares := Text.splitOn (· == ',') text
  StyleFlaw.check (shares.length = 3)
  if shares.any List.isEmpty then throw .emptyShare
  StyleFlaw.check (shares.all fun digits => share digits ≤ largestShare)

def colorName (word : List Char) : Except StyleFlaw (List Char) := do
  let name := Text.lower word
  match name, enclosed? "color(" name, enclosed? "rgb(" name with
  | '#' :: digits, _, _ => StyleFlaw.check (digits.length = 6 && digits.all isHexDigit)
  | _, some digits, _ => StyleFlaw.check (isPaletteNumber digits)
  | _, _, some shares => checkShares shares
  | _, _, _ => StyleFlaw.check (colorNames.contains (String.ofList name))
  return name

end Reckon.Page
