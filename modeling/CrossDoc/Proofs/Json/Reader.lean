import CrossDoc.Json.Reader
import CrossDoc.Proofs.Json.Binary64
import CrossDoc.Proofs.Json.StringLiteral

/-!
# Texts that are written

The text of a value is read as the draft of that value (`Draft.parse?_toText`). A reader goes
through the text in the order in which it was written, so for each value it ends where the next
token begins (`Reader.run_pretty`).
-/

namespace CrossDoc.Json

/-! ## Drafts of values -/

def numeralOf (text : List Char) : Numeral :=
  (Numeral.ofText? text).getD { negative := false, whole := [] }

namespace Draft

mutual
/-- The draft of the text of a value. -/
def ofJson : Json → Draft
  | .null => .word .null
  | .bool b => .word (.bool b)
  | .int n => .number (numeralOf (renderInt n))
  | .float x => .number (numeralOf x.render)
  | .str s => .text (StringLiteral.parts s)
  | .arr items => .arr (ofItems items)
  | .obj members => .obj (ofMembers members)

def ofItems : List Json → List Draft
  | [] => []
  | item :: rest => ofJson item :: ofItems rest

def ofMembers : List (String × Json) → List (StringLiteral × Draft)
  | [] => []
  | (name, value) :: rest => (StringLiteral.parts name, ofJson value) :: ofMembers rest
end

end Draft

/-! ## One token -/

/-- No number and no word goes on with this text. -/
def Delimits (rest : List Char) : Prop :=
  ∀ c ∈ rest.head?, isNumberChar c = false ∧ c.isAlpha = false

theorem delimits_newLine (level : Nat) (rest : List Char) : Delimits (newLine level ++ rest) := by
  rintro c ⟨⟩
  exact ⟨rfl, rfl⟩

theorem delimits_prettyItems (level : Nat) (items : List Json) {rest : List Char}
    (h : Delimits rest) : Delimits (prettyItems level items ++ rest) := by
  cases items with
  | nil => exact h
  | cons item others =>
      rintro c ⟨⟩
      exact ⟨rfl, rfl⟩

theorem delimits_prettyMembers (level : Nat) (members : List (String × Json)) {rest : List Char}
    (h : Delimits rest) : Delimits (prettyMembers level members ++ rest) := by
  cases members with
  | nil => exact h
  | cons member others =>
      rintro c ⟨⟩
      exact ⟨rfl, rfl⟩

namespace Token

theorem next?_text (s : String) (rest : List Char) :
    next? '"' (s.toList.flatMap escaped ++ '"' :: rest) =
      some (.text (StringLiteral.parts s), rest) := by
  unfold next?
  simp [punctuation?, StringLiteral.read?_parts]

theorem next?_number {text : List Char} {numeral : Numeral} (h : Numeral.Spells text numeral)
    {rest : List Char} (hrest : Delimits rest) :
    ∃ first others, text = first :: others ∧ isSpace first = false ∧
      next? first (others ++ rest) = some (.number numeral, rest) := by
  obtain ⟨first, others, rfl, hfirst⟩ := h.head
  have hothers : ∀ c ∈ others, isNumberChar c = true := fun c hc =>
    h.chars c (List.mem_cons_of_mem first hc)
  obtain ⟨htake, hdrop⟩ := takeWhile_append_of_stop hothers (fun c hc => (hrest c hc).1)
  have hne : ∀ c : Char, c ≠ '-' → c.isDigit = false → first ≠ c := by
    rintro c hminus hdigit rfl
    rcases hfirst with hfirst | hfirst
    · exact hminus hfirst
    · rw [hfirst] at hdigit
      exact absurd hdigit (by decide)
  have hstart : (decide (first = '-') || first.isDigit) = true := by
    simpa using hfirst
  refine ⟨first, others, rfl, ?_, ?_⟩
  · simp [isSpace, hne ' ', hne '\n', hne '\r', hne '\t']
  · have hpunctuation : punctuation? first = none := by
      simp [punctuation?, hne '[', hne ']', hne '\x7b', hne '\x7d', hne ',', hne ':']
    have hquote : first ≠ '"' := hne '"' (by decide) (by decide)
    unfold next?
    rw [hpunctuation]
    simp only [if_neg hquote, hstart, if_true, htake, hdrop, h.ofText?, Option.map_some]

end Token

namespace Reader

variable {reader : Reader} {token : Token} {c : Char} {rest after : List Char}

theorem run_space (h : isSpace c = true) (reader : Reader) (rest : List Char) :
    run reader (c :: rest) = run reader rest := by
  rw [run, if_pos h]

theorem run_token (hspace : isSpace c = false) (htoken : Token.next? c rest = some (token, after))
    {next : Reader} (hstep : reader.step token = some next) :
    run reader (c :: rest) = run next after := by
  rw [run, if_neg (by simp [hspace])]
  split
  · rename_i hnone
    rw [hnone] at htoken
    exact absurd htoken (by simp)
  · rename_i found others hfound
    obtain ⟨rfl, rfl⟩ := Prod.mk.inj (Option.some.inj (hfound.symm.trans htoken))
    simp only [hstep]

theorem run_newLine (reader : Reader) (level : Nat) (rest : List Char) :
    run reader (newLine level ++ rest) = run reader rest := by
  have hspaces : ∀ n : Nat, run reader (List.replicate n ' ' ++ rest) = run reader rest := by
    intro n
    induction n with
    | zero => rfl
    | succ n ih => rw [List.replicate_succ, List.cons_append, run_space rfl, ih]
  rw [newLine, List.cons_append, run_space rfl, hspaces]

/-! ## Values without parts -/

theorem run_text (closable : Bool) (frames : List Frame) (s : String) (rest : List Char) :
    run (.needValue closable frames) (renderText s ++ rest) =
      run (close (.text (StringLiteral.parts s)) frames) rest := by
  unfold renderText
  rw [List.cons_append, List.append_assoc, List.singleton_append]
  exact run_token rfl (Token.next?_text s rest) rfl

theorem run_name (closable : Bool) (members : List (StringLiteral × Draft)) (frames : List Frame)
    (name : String) (rest : List Char) :
    run (.needName closable members frames) (renderText name ++ ':' :: ' ' :: rest) =
      run (.needValue false (.object members (StringLiteral.parts name) :: frames)) rest := by
  have hname : ∀ text, run (.needName closable members frames)
      ('"' :: (name.toList.flatMap escaped ++ '"' :: text)) =
        run (.needColon (StringLiteral.parts name) members frames) text := fun text =>
    run_token rfl (Token.next?_text name text) (by cases closable <;> rfl)
  have hcolon : run (.needColon (StringLiteral.parts name) members frames) (':' :: ' ' :: rest) =
      run (.needValue false (.object members (StringLiteral.parts name) :: frames))
        (' ' :: rest) := run_token rfl rfl rfl
  unfold renderText
  rw [List.cons_append, List.append_assoc, List.singleton_append, hname, hcolon, run_space rfl]

theorem run_number (closable : Bool) (frames : List Frame) {text : List Char}
    (h : ∃ numeral, Numeral.Spells text numeral) (hrest : Delimits rest) :
    run (.needValue closable frames) (text ++ rest) =
      run (close (.number (numeralOf text)) frames) rest := by
  obtain ⟨numeral, hspells⟩ := h
  have hnumeral : numeralOf text = numeral := by
    unfold numeralOf
    rw [hspells.ofText?]
    rfl
  obtain ⟨first, others, rfl, hspace, htoken⟩ := Token.next?_number hspells hrest
  rw [hnumeral]
  exact run_token hspace htoken rfl

theorem run_word (closable : Bool) (frames : List Frame) {first : Char} {others : List Char}
    {value : Json} (hstart : first ∈ ['n', 't', 'f']) (hothers : others.all Char.isAlpha = true)
    (hword : word? (first :: others) = some value) (hrest : Delimits rest) :
    run (.needValue closable frames) (first :: others ++ rest) =
      run (close (.word value) frames) rest := by
  obtain ⟨htake, hdrop⟩ := takeWhile_append_of_stop (List.all_eq_true.1 hothers)
    (fun c hc => (hrest c hc).2)
  have htoken : Token.next? first (others ++ rest) = some (.word value, rest) := by
    unfold Token.next?
    rw [htake, hdrop, hword]
    simp only [List.mem_cons, List.not_mem_nil, or_false] at hstart
    rcases hstart with rfl | rfl | rfl
    all_goals rfl
  refine run_token ?_ htoken rfl
  simp only [List.mem_cons, List.not_mem_nil, or_false] at hstart
  rcases hstart with rfl | rfl | rfl
  all_goals rfl

/-! ## All values -/

mutual
/-- A reader that is due a value reads one that is written and goes on after it. -/
theorem run_pretty (level : Nat) : ∀ (json : Json) (closable : Bool) (frames : List Frame)
    (rest : List Char), Delimits rest →
    run (.needValue closable frames) (json.pretty level ++ rest) =
      run (close (Draft.ofJson json) frames) rest
  | .null, closable, frames, rest, h => by
      simp only [pretty, Draft.ofJson]
      exact run_word closable frames (by simp) rfl rfl h
  | .bool true, closable, frames, rest, h => by
      simp only [pretty, Draft.ofJson]
      exact run_word closable frames (by simp) rfl rfl h
  | .bool false, closable, frames, rest, h => by
      simp only [pretty, Draft.ofJson]
      exact run_word closable frames (by simp) rfl rfl h
  | .int n, closable, frames, rest, h => by
      simp only [pretty, Draft.ofJson]
      exact run_number closable frames (exists_spells_renderInt n) h
  | .float x, closable, frames, rest, h => by
      simp only [pretty, Draft.ofJson]
      exact run_number closable frames x.exists_spells_render h
  | .str s, closable, frames, rest, _ => by
      simp only [pretty, Draft.ofJson]
      exact run_text closable frames s rest
  | .arr [], closable, frames, rest, _ => by
      simp only [pretty, Draft.ofJson, Draft.ofItems, List.cons_append, List.nil_append]
      have hopen : run (.needValue closable frames) ('[' :: ']' :: rest) =
          run (.needValue true (.array [] :: frames)) (']' :: rest) := run_token rfl rfl rfl
      rw [hopen]
      exact run_token rfl rfl rfl
  | .arr (item :: others), closable, frames, rest, _ => by
      have hopen : ∀ text, run (.needValue closable frames) ('[' :: text) =
          run (.needValue true (.array [] :: frames)) text := fun text => run_token rfl rfl rfl
      have hclose : Delimits (newLine level ++ ']' :: rest) := delimits_newLine level _
      simp only [pretty, Draft.ofJson, Draft.ofItems, List.cons_append, List.append_assoc,
        List.nil_append]
      rw [hopen, run_newLine, run_pretty (level + 1) item _ _ _ (delimits_prettyItems _ _ hclose),
        close, run_prettyItems (level + 1) others _ _ _ hclose, run_newLine]
      refine run_token rfl rfl ?_
      simp [step]
  | .obj [], closable, frames, rest, _ => by
      simp only [pretty, Draft.ofJson, Draft.ofMembers, List.cons_append, List.nil_append]
      have hopen : run (.needValue closable frames) ('\x7b' :: '\x7d' :: rest) =
          run (.needName true [] frames) ('\x7d' :: rest) := run_token rfl rfl rfl
      rw [hopen]
      exact run_token rfl rfl rfl
  | .obj ((name, value) :: others), closable, frames, rest, _ => by
      have hopen : ∀ text, run (.needValue closable frames) ('\x7b' :: text) =
          run (.needName true [] frames) text := fun text => run_token rfl rfl rfl
      have hclose : Delimits (newLine level ++ '\x7d' :: rest) := delimits_newLine level _
      simp only [pretty, Draft.ofJson, Draft.ofMembers, List.cons_append, List.append_assoc,
        List.nil_append]
      rw [hopen, run_newLine, run_name,
        run_pretty (level + 1) value _ _ _ (delimits_prettyMembers _ _ hclose), close,
        run_prettyMembers (level + 1) others _ _ _ hclose, run_newLine]
      refine run_token rfl rfl ?_
      simp [step]

theorem run_prettyItems (level : Nat) : ∀ (items : List Json) (before : List Draft)
    (frames : List Frame) (rest : List Char), Delimits rest →
    run (.afterItem before frames) (prettyItems level items ++ rest) =
      run (.afterItem ((Draft.ofItems items).reverse ++ before) frames) rest
  | [], before, frames, rest, _ => by
      simp only [prettyItems, Draft.ofItems, List.nil_append, List.reverse_nil]
  | item :: others, before, frames, rest, h => by
      have hcomma : ∀ text, run (.afterItem before frames) (',' :: text) =
          run (.needValue false (.array before :: frames)) text := fun text => run_token rfl rfl rfl
      simp only [prettyItems, Draft.ofItems, List.cons_append, List.append_assoc]
      rw [hcomma, run_newLine, run_pretty level item _ _ _ (delimits_prettyItems _ _ h), close,
        run_prettyItems level others _ _ _ h, List.reverse_cons, List.append_assoc]
      rfl

theorem run_prettyMembers (level : Nat) : ∀ (members : List (String × Json))
    (before : List (StringLiteral × Draft)) (frames : List Frame) (rest : List Char),
    Delimits rest →
    run (.afterMember before frames) (prettyMembers level members ++ rest) =
      run (.afterMember ((Draft.ofMembers members).reverse ++ before) frames) rest
  | [], before, frames, rest, _ => by
      simp only [prettyMembers, Draft.ofMembers, List.nil_append, List.reverse_nil]
  | (name, value) :: others, before, frames, rest, h => by
      have hcomma : ∀ text, run (.afterMember before frames) (',' :: text) =
          run (.needName false before frames) text := fun text => run_token rfl rfl rfl
      simp only [prettyMembers, Draft.ofMembers, List.cons_append, List.append_assoc]
      rw [hcomma, run_newLine, run_name,
        run_pretty level value _ _ _ (delimits_prettyMembers _ _ h), close,
        run_prettyMembers level others _ _ _ h, List.reverse_cons, List.append_assoc]
      rfl
end

end Reader

/-- What is written for a value is read as the draft of the value. -/
theorem Draft.parse?_toText (json : Json) : parse? json.toText = some (ofJson json) := by
  have hread := Reader.run_pretty 0 json false [] [] (by rintro c ⟨⟩)
  unfold parse? toText
  rw [List.append_nil] at hread
  rw [String.toList_ofList, hread, Reader.close, Reader.run]

end CrossDoc.Json
