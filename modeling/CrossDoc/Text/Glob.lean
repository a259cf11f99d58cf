import CrossDoc.Text.Basic

/-!
# Path patterns

A pattern is a sequence of tokens, each of which matches some stretch of a path: one character, any
stretch, or any run of whole directories. Case counts, and a slash or a leading dot is a character
like any other.
-/

namespace CrossDoc.Text

namespace Glob

inductive Token where
  | char (c : Char)
  | anyChar
  | oneOf (ranges : List (Char × Char)) (negated : Bool)
  | anyText
  /-- Nothing, or any stretch that ends in a slash or at the end of the path. -/
  | anyDirectories
deriving DecidableEq, Repr

/-- The ranges a set is written with: `a-z` is a range, any other character stands for itself. -/
def ranges : List Char → List (Char × Char)
  | first :: '-' :: last :: rest => (first, last) :: ranges rest
  | c :: rest => (c, c) :: ranges rest
  | [] => []

/-- The members of a set and what follows it; the first member may be a closing bracket. -/
def cutSet? : List Char → Option (List Char × List Char)
  | [] => none
  | first :: rest => (cut? ']' rest).map (fun parts => (first :: parts.1, parts.2))

theorem length_cut?_lt {c : Char} {text before after : List Char}
    (h : cut? c text = some (before, after)) : after.length < text.length := by
  induction text generalizing before with
  | nil => simp [cut?] at h
  | cons d rest ih =>
      simp only [cut?] at h
      split at h
      · cases h; simp
      · obtain ⟨parts, hparts, heq⟩ := Option.map_eq_some_iff.1 h
        cases heq
        exact Nat.lt_succ_of_lt (ih hparts)

theorem length_cutSet?_lt {text members after : List Char}
    (h : cutSet? text = some (members, after)) : after.length < text.length := by
  cases text with
  | nil => simp [cutSet?] at h
  | cons first rest =>
      obtain ⟨parts, hparts, heq⟩ := Option.map_eq_some_iff.1 h
      cases heq
      exact Nat.lt_succ_of_lt (length_cut?_lt hparts)

/--
The tokens of a pattern, or nothing where it is not well formed: two stars must stand alone between
slashes or ends, and a set must be closed. `before` is the character in front, if there is one.
-/
def compile? (before : Option Char) (pattern : List Char) : Option (List Token) :=
  match pattern with
  | [] => some []
  | '?' :: rest => (compile? (some '?') rest).map (.anyChar :: ·)
  | '*' :: '*' :: rest =>
    if before.all (· == '/') then
      match rest with
      | [] => some [.anyDirectories]
      | '/' :: rest => (compile? (some '/') rest).map (.anyDirectories :: ·)
      | _ :: _ => none
    else none
  | '*' :: rest => (compile? (some '*') rest).map (.anyText :: ·)
  | '[' :: '!' :: rest =>
    match h : cutSet? rest with
    | none => none
    | some (members, after) =>
      have := length_cutSet?_lt h
      (compile? (some ']') after).map (.oneOf (ranges members) true :: ·)
  | '[' :: rest =>
    match h : cutSet? rest with
    | none => none
    | some (members, after) =>
      have := length_cutSet?_lt h
      (compile? (some ']') after).map (.oneOf (ranges members) false :: ·)
  | c :: rest => (compile? (some c) rest).map (.char c :: ·)
termination_by pattern.length

def Token.takes (c : Char) : Token → Bool
  | .char d => c == d
  | .anyChar => true
  | .oneOf ranges negated => ranges.any (fun range => range.1 ≤ c && c ≤ range.2) != negated
  | .anyText | .anyDirectories => false

/--
How far tokens may match a path: for the start of the path and for the end of each of its
characters, whether they may match up to there.
-/
abbrev Reached := List Bool

def spread (seen : Bool) : Reached → Reached
  | [] => []
  | reached :: rest => (seen || reached) :: spread (seen || reached) rest

/--
What is reached already, and after that every place behind a slash and the end of the path. `seen`
says that a place before these is reached, and `behindSlash` that a slash is just before them.
-/
def spreadDirectories (seen behindSlash : Bool) : List Char → Reached → Reached
  | [], places => places.map (seen || ·)
  | c :: text, reached :: rest =>
    (reached || (seen && behindSlash)) :: spreadDirectories (seen || reached) (c == '/') text rest
  | _ :: _, [] => []

def Token.advance (text : List Char) (places : Reached) : Token → Reached
  | .anyText => spread false places
  | .anyDirectories => spreadDirectories false false text places
  -- a token for one character moves every place on by one
  | token => false :: List.zipWith (fun c reached => reached && token.takes c) text places

def startOf (text : List Char) : Reached := true :: text.map (fun _ => false)

def matchesAll (tokens : List Token) (text : List Char) : Bool :=
  (tokens.foldl (Token.advance text) (startOf text)).getLast? == some true

end Glob

/--
Whether a well-formed pattern matches the whole of a path. A pattern that is not matches nothing.
-/
def globMatches (pattern path : String) : Bool :=
  match Glob.compile? none pattern.toList with
  | some tokens => Glob.matchesAll tokens path.toList
  | none => false

end CrossDoc.Text
