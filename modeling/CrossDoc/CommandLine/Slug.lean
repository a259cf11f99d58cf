import CrossDoc.Text.Basic

/-!
# The slugs of the program

A slug spells a text with lower-case ASCII letters, digits and single dashes. Letters outside ASCII
are first spelled with ASCII ones, as far as the table goes.
-/

namespace CrossDoc.Text

/--
How characters outside ASCII are spelled: lower-case ASCII letters and digits, with a dash where the
spelling has a gap. An empty spelling drops the character.
-/
def spellings : List (Nat × String) :=
  [(0x0085, ""), (0x00A0, "-"), (0x00A9, "-c-"), (0x00AB, "-"), (0x00B2, "2"), (0x00BB, "-"),
   (0x00BD, "1-2"), (0x00C0, "a"), (0x00C1, "a"), (0x00C2, "a"), (0x00C3, "a"), (0x00C4, "a"),
   (0x00C5, "a"), (0x00C6, "ae"), (0x00C7, "c"), (0x00C8, "e"), (0x00C9, "e"), (0x00CA, "e"),
   (0x00CB, "e"), (0x00CC, "i"), (0x00CD, "i"), (0x00CE, "i"), (0x00CF, "i"), (0x00D0, "d"),
   (0x00D1, "n"), (0x00D2, "o"), (0x00D3, "o"), (0x00D4, "o"), (0x00D5, "o"), (0x00D6, "o"),
   (0x00D7, "x"), (0x00D8, "o"), (0x00D9, "u"), (0x00DA, "u"), (0x00DB, "u"), (0x00DC, "u"),
   (0x00DD, "y"), (0x00DE, "th"), (0x00DF, "ss"), (0x00E0, "a"), (0x00E1, "a"), (0x00E2, "a"),
   (0x00E3, "a"), (0x00E4, "a"), (0x00E5, "a"), (0x00E6, "ae"), (0x00E7, "c"), (0x00E8, "e"),
   (0x00E9, "e"), (0x00EA, "e"), (0x00EB, "e"), (0x00EC, "i"), (0x00ED, "i"), (0x00EE, "i"),
   (0x00EF, "i"), (0x00F0, "d"), (0x00F1, "n"), (0x00F2, "o"), (0x00F3, "o"), (0x00F4, "o"),
   (0x00F5, "o"), (0x00F6, "o"), (0x00F7, "-"), (0x00F8, "o"), (0x00F9, "u"), (0x00FA, "u"),
   (0x00FB, "u"), (0x00FC, "u"), (0x00FD, "y"), (0x00FE, "th"), (0x00FF, "y"), (0x0111, "d"),
   (0x0130, "i"), (0x0131, "i"), (0x0141, "l"), (0x0142, "l"), (0x0171, "u"), (0x017A, "z"),
   (0x01C5, "dz"), (0x01C6, "dz"), (0x0301, ""), (0x0307, ""), (0x0391, "a"), (0x039F, "o"),
   (0x03A3, "s"), (0x03A9, "o"), (0x03AC, "a"), (0x03B1, "a"), (0x03B5, "e"), (0x03B7, "e"),
   (0x03B9, "i"), (0x03BA, "k"), (0x03BB, "l"), (0x03BD, "n"), (0x03BF, "o"), (0x03C2, "s"),
   (0x03C3, "s"), (0x03C9, "o"), (0x041C, "m"), (0x041F, "p"), (0x0432, "v"), (0x0435, "e"),
   (0x0438, "i"), (0x043C, "m"), (0x043F, "p"), (0x0440, "r"), (0x0442, "t"), (0x1E9E, "ss"),
   (0x2003, "-"), (0x200B, "-"), (0x2014, "-"), (0x201C, "-"), (0x201D, "-"), (0x2026, "-"),
   (0x2028, "-"), (0x20AC, "eur"), (0x2116, "no"), (0x2122, "tm"), (0x212A, "k"), (0x212B, "a"),
   (0x3000, "-"), (0x4EAC, "jing-"), (0x5317, "bei-"), (0x65E5, "ri-"), (0x672C, "ben-"),
   (0x8A9E, "yu-"), (0xAD6D, "gug"), (0xD55C, "han"), (0xE000, "-"), (0xFB01, "fi"), (0xFEFF, ""),
   (0xFFFF, "-"), (0x1F600, "grinning-"), (0x10FFFF, "-")]

def spelling (c : Char) : List Char :=
  if c.toNat < 0x80 then [c]
  else
    match spellings.find? (fun row => row.1 == c.toNat) with
    | some row => row.2.toList
    | none => ['-']

/--
Writes letters and digits in lower case and one dash for each run of anything else. `dashed` says
that a dash would be of no use here: there is one just before, or nothing yet.
-/
def dashes (dashed : Bool) : List Char → List Char
  | [] => []
  | c :: rest =>
    if c.isAlphanum then c.toLower :: dashes false rest
    else if dashed then dashes true rest
    else '-' :: dashes true rest

def dropLastDash (text : List Char) : List Char :=
  if text.getLast? = some '-' then text.dropLast else text

instance : Slugger where
  slug text := dropLastDash (dashes true (text.flatMap spelling))

end CrossDoc.Text
