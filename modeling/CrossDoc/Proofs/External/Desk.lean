import CrossDoc.External.Session
import CrossDoc.Proofs.External.Cache
import Mathlib.Data.Finset.Card

/-!
# Callers at a table

No turn looks at what other callers do: a caller sees the table when it looks its url up, and after
that its cell. That a url is requested once follows from the cells. Every url has one cell, which no
other url has, and a caller holds the cell of its own url (`SharesCells`); so what is in the cell of
a url says how far that url has come (`Fits`), and a turn of one caller leaves every other url as it
is (`Fits.frame`). Every turn keeps both (`IsConsistent.turn`) and is one of a limited number
(`turns_lt_of_turn`), and as long as someone is not answered there is a turn to take
(`IsConsistent.exists_turn`).
-/

namespace CrossDoc.Desk

variable {α : Type} {decoder : Json.Decoder α} {desk next : Desk α} {place other cell : Nat}
  {url called : String} {old new stage : CallStage α}

/-! ## Places of callers -/

theorem at_call : (desk.call called).At place url stage ↔
    desk.At place url stage ∨ place = desk.calls.length ∧ url = called ∧ stage = .asking := by
  unfold At call
  simp only [List.getElem?_append]
  rcases Nat.lt_trichotomy place desk.calls.length with h | h | h
  · simp [h, Nat.ne_of_lt h]
  · subst h
    simp [eq_comm]
  · have hlen : ¬ place < desk.calls.length := by omega
    have hzero : place - desk.calls.length ≠ 0 := by omega
    simp [hlen, hzero, Nat.ne_of_gt h]

theorem at_advance (h : desk.At place url old) :
    (desk.advance place url new).At other called stage ↔
      other = place ∧ called = url ∧ stage = new ∨ other ≠ place ∧ desk.At other called stage := by
  have hplace : place < desk.calls.length := (List.getElem?_eq_some_iff.1 h).1
  unfold At advance
  simp only [List.getElem?_set]
  by_cases hsame : place = other
  · subst hsame
    simp [hplace, eq_comm]
  · simp [hsame, Ne.symm hsame]

theorem At.eq {found : CallStage α} (h : desk.At place url stage)
    (hother : desk.At place called found) : called = url ∧ found = stage :=
  Call.mk.inj (Option.some.inj (hother.symm.trans h))

theorem at_advance_of_ne (h : desk.At place url old) (hold : old ≠ stage) (hnew : new ≠ stage) :
    (desk.advance place url new).At other called stage ↔ desk.At other called stage := by
  rw [at_advance h]
  constructor
  · rintro (⟨-, -, hstage⟩ | ⟨-, hat⟩)
    · exact absurd hstage.symm hnew
    · exact hat
  · intro hat
    refine Or.inr ⟨?_, hat⟩
    rintro rfl
    exact hold (h.eq hat).2.symm

theorem at_advance_of_url_ne (h : desk.At place url old) (hurl : called ≠ url) :
    (desk.advance place url new).At other called stage ↔ desk.At other called stage := by
  rw [at_advance h]
  constructor
  · rintro (⟨-, hsame, -⟩ | ⟨-, hat⟩)
    · exact absurd hsame hurl
    · exact hat
  · intro hat
    refine Or.inr ⟨?_, hat⟩
    rintro rfl
    exact hurl (h.eq hat).1

theorem exists_at_of_turn (hturn : desk.Turn decoder next) :
    (∃ stage, next.At other called stage) ↔ ∃ stage, desk.At other called stage := by
  have hadvance {place : Nat} {url : String} {old new : CallStage α} (h : desk.At place url old) :
      (∃ stage, (desk.advance place url new).At other called stage) ↔
        ∃ stage, desk.At other called stage := by
    simp only [at_advance h]
    constructor
    · rintro ⟨stage, ⟨rfl, rfl, -⟩ | ⟨-, hat⟩⟩
      · exact ⟨old, h⟩
      · exact ⟨stage, hat⟩
    · rintro ⟨stage, hat⟩
      by_cases hplace : other = place
      · subst hplace
        exact ⟨new, Or.inl ⟨rfl, (h.eq hat).1, rfl⟩⟩
      · exact ⟨stage, Or.inr ⟨hplace, hat⟩⟩
  cases hturn with
  | lookUp hcall _ => exact hadvance hcall
  | enter hcall _ => exact hadvance hcall
  | request hcall _ => exact hadvance hcall
  | receive response hcall => exact hadvance hcall
  | wake hcall _ => exact hadvance hcall

def LookedUp (desk : Desk α) (url : String) : Prop :=
  ∃ place stage, desk.At place url stage ∧ stage.hasLookedUp = true

theorem lookedUp_call : (desk.call called).LookedUp url ↔ desk.LookedUp url := by
  constructor
  · rintro ⟨place, stage, hat, hstage⟩
    rcases at_call.1 hat with hat | ⟨-, -, rfl⟩
    · exact ⟨place, stage, hat, hstage⟩
    · cases hstage
  · rintro ⟨place, stage, hat, hstage⟩
    exact ⟨place, stage, at_call.2 (Or.inl hat), hstage⟩

theorem lookedUp_advance_self (h : desk.At place url old) (hnew : new.hasLookedUp = true) :
    (desk.advance place url new).LookedUp url :=
  ⟨place, new, (at_advance h).2 (Or.inl ⟨rfl, rfl, rfl⟩), hnew⟩

/-! ## Cells -/

/--
Whoever holds a cell holds that of its url, and every url that was looked up has a cell of its own.
-/
structure SharesCells (desk : Desk α) : Prop where
  placed : ∀ {url cell}, desk.slots.get? url = some cell → cell < desk.cells.length
  apart : ∀ {url other cell}, desk.slots.get? url = some cell →
    desk.slots.get? other = some cell → url = other
  held : ∀ {place url stage cell}, desk.At place url stage → stage.cell? = some cell →
    desk.slots.get? url = some cell

/-- What is in the cell of a url, if it has one. -/
def content? (desk : Desk α) (url : String) : Option (OnceCell (Option α)) :=
  (desk.slots.get? url).bind (fun cell => desk.cells[cell]?)

theorem content?_of_slot (h : desk.slots.get? url = some cell) :
    desk.content? url = desk.cells[cell]? := by
  unfold content?
  rw [h, Option.bind_some]

theorem content?_of_new (h : desk.slots.get? url = none) : desk.content? url = none := by
  unfold content?
  rw [h, Option.bind_none]

theorem content?_eq_ite {content : OnceCell (Option α)} (h : desk.content? url = some content)
    (called : String) :
    desk.content? called = if called = url then some content else desk.content? called := by
  split
  · rename_i hsame
    exact hsame ▸ h
  · rfl

theorem contains_slots (h : desk.SharesCells) (url : String) :
    desk.slots.contains url = true ↔ (desk.content? url).isSome = true := by
  unfold SortedMap.contains content?
  cases hslot : desk.slots.get? url with
  | none => simp
  | some cell => simp [h.placed hslot]

namespace SharesCells

theorem call (h : desk.SharesCells) (url : String) : (desk.call url).SharesCells where
  placed := h.placed
  apart := h.apart
  held hat hcell := by
    rcases at_call.1 hat with hat | ⟨-, -, rfl⟩
    · exact h.held hat hcell
    · cases hcell

theorem advance (h : desk.SharesCells) (hcall : desk.At place url old)
    (hnew : ∀ cell, new.cell? = some cell → desk.slots.get? url = some cell) :
    (desk.advance place url new).SharesCells where
  placed := h.placed
  apart := h.apart
  held hat hcell := by
    rcases (at_advance hcall).1 hat with ⟨-, rfl, rfl⟩ | ⟨-, hat⟩
    · exact hnew _ hcell
    · exact h.held hat hcell

theorem set (h : desk.SharesCells) (cell : Nat) (content : OnceCell (Option α)) :
    ({ desk with cells := desk.cells.set cell content } : Desk α).SharesCells where
  placed hslot := by
    rw [List.length_set]
    exact h.placed hslot
  apart := h.apart
  held := h.held

/-- The cell that is entered for a new url is none of those that others have. -/
theorem enter (h : desk.SharesCells) (hnew : desk.slots.get? url = none) :
    ({ desk with
      slots := desk.slots.insert url desk.cells.length
      cells := desk.cells ++ [.empty] } : Desk α).SharesCells where
  placed hslot := by
    rw [List.length_append, List.length_singleton]
    rw [SortedMap.get?_insert] at hslot
    split at hslot
    · obtain rfl := Option.some.inj hslot
      exact Nat.lt_succ_self _
    · exact Nat.lt_succ_of_lt (h.placed hslot)
  apart hfirst hsecond := by
    simp only [SortedMap.get?_insert] at hfirst hsecond
    split at hfirst <;> split at hsecond
    · rename_i hone htwo
      exact hone.trans htwo.symm
    · obtain rfl := Option.some.inj hfirst
      exact absurd (h.placed hsecond) (Nat.lt_irrefl _)
    · obtain rfl := Option.some.inj hsecond
      exact absurd (h.placed hfirst) (Nat.lt_irrefl _)
    · exact h.apart hfirst hsecond
  held {_ called _ cell} hat hcell := by
    have hslot := h.held hat hcell
    have hother : called ≠ url := by
      rintro rfl
      exact absurd (hnew.symm.trans hslot) (by simp)
    exact (SortedMap.get?_insert_of_ne desk.slots _ hother).trans hslot

theorem exists_content (h : desk.SharesCells) (hslot : desk.slots.get? url = some cell) :
    ∃ content, desk.content? url = some content :=
  ⟨_, (content?_of_slot hslot).trans (List.getElem?_eq_getElem (h.placed hslot))⟩

theorem content?_set (h : desk.SharesCells) (hslot : desk.slots.get? url = some cell)
    (content : OnceCell (Option α)) (called : String) :
    ({ desk with cells := desk.cells.set cell content } : Desk α).content? called =
      if called = url then some content else desk.content? called := by
  unfold content?
  split
  · rename_i hsame
    rw [hsame, hslot]
    exact List.getElem?_set_self (h.placed hslot)
  · rename_i hother
    cases hcalled : desk.slots.get? called with
    | none => rfl
    | some found =>
        have hne : cell ≠ found := by
          rintro rfl
          exact hother (h.apart hcalled hslot)
        exact List.getElem?_set_ne hne

theorem content?_enter (h : desk.SharesCells) (called : String) :
    ({ desk with
      slots := desk.slots.insert url desk.cells.length
      cells := desk.cells ++ [.empty] } : Desk α).content? called =
      if called = url then some .empty else desk.content? called := by
  unfold content?
  simp only [SortedMap.get?_insert]
  split
  · exact List.getElem?_concat_length
  · cases hcalled : desk.slots.get? called with
    | none => rfl
    | some found => exact List.getElem?_append_left (h.placed hcalled)

end SharesCells

/-! ## One url -/

def responsesFor (desk : Desk α) (url : String) : List (Option Json) :=
  (desk.responses.filter (fun entry => entry.1 == url)).map (·.2)

/-- The number of requests for a url, by what is in its cell. -/
def requestsOf : Option (OnceCell (Option α)) → Nat
  | none | some .empty => 0
  | some .filling | some (.filled _) => 1

/-- What is in a cell when these responses have come for its url. -/
def Holds (decoder : Json.Decoder α) :
    Option (OnceCell (Option α)) → List (Option Json) → Prop
  | some (.filled answer), responses =>
    ∃ response, responses = [response] ∧ answer = read decoder response
  | _, responses => responses = []

/-- How far a url has come, by what is in its cell. -/
structure Fits (decoder : Json.Decoder α) (desk : Desk α) (url : String)
    (content? : Option (OnceCell (Option α))) : Prop where
  known : content?.isSome = true ↔ desk.LookedUp url
  filling : content? = some .filling ↔ ∃ place cell, desk.At place url (.fetching cell)
  one_fetching : ∀ {place other cell found}, desk.At place url (.fetching cell) →
    desk.At other url (.fetching found) → place = other
  requested : desk.requests.count url = requestsOf content?
  received : Holds decoder content? (desk.responsesFor url)
  answered : ∀ {place answer}, desk.At place url (.answered answer) →
    content? = some (.filled answer)

namespace Fits

variable {content? : Option (OnceCell (Option α))}

/-- A turn that is not of a caller of the url, nor sends for it, leaves the url as it was. -/
theorem frame (h : desk.Fits decoder called content?)
    (hat : ∀ {place stage}, next.At place called stage ↔ desk.At place called stage)
    (hrequests : next.requests.count called = desk.requests.count called)
    (hresponses : next.responsesFor called = desk.responsesFor called) :
    next.Fits decoder called content? where
  known :=
    h.known.trans (exists_congr fun _ => exists_congr fun _ => and_congr_left fun _ => hat.symm)
  filling := h.filling.trans (exists_congr fun _ => exists_congr fun _ => hat.symm)
  one_fetching hfirst hsecond := h.one_fetching (hat.1 hfirst) (hat.1 hsecond)
  requested := hrequests.trans h.requested
  received := hresponses ▸ h.received
  answered hanswered := h.answered (hat.1 hanswered)

theorem filling_advance (h : desk.Fits decoder url content?) (hcall : desk.At place url old)
    (hold : ∀ cell, old ≠ .fetching cell) (hnew : ∀ cell, new ≠ .fetching cell) :
    content? = some .filling ↔
      ∃ other cell, (desk.advance place url new).At other url (.fetching cell) :=
  h.filling.trans (exists_congr fun _ => exists_congr fun _ =>
    (at_advance_of_ne hcall (hold _) (hnew _)).symm)

theorem one_fetching_advance (h : desk.Fits decoder url content?) (hcall : desk.At place url old)
    (hold : ∀ cell, old ≠ .fetching cell) (hnew : ∀ cell, new ≠ .fetching cell)
    {first second cell found : Nat}
    (hfirst : (desk.advance place url new).At first url (.fetching cell))
    (hsecond : (desk.advance place url new).At second url (.fetching found)) : first = second :=
  h.one_fetching ((at_advance_of_ne hcall (hold _) (hnew _)).1 hfirst)
    ((at_advance_of_ne hcall (hold _) (hnew _)).1 hsecond)

theorem lookUp (h : desk.Fits decoder url content?) (hcall : desk.At place url .asking)
    (cell : Nat) : (desk.advance place url (.waiting cell)).Fits decoder url
      (some (content?.getD .empty)) where
  known := iff_of_true rfl (lookedUp_advance_self hcall rfl)
  filling := by
    rw [← h.filling_advance hcall (by simp) (by simp)]
    cases content? <;> simp
  one_fetching := h.one_fetching_advance hcall (by simp) (by simp)
  requested := by
    refine h.requested.trans ?_
    cases content? <;> rfl
  received := by
    have hreceived := h.received
    cases content? <;> exact hreceived
  answered hat := by
    rw [h.answered ((at_advance_of_ne hcall (by simp) (by simp)).1 hat)]
    rfl

theorem request (h : desk.Fits decoder url (some .empty))
    (hcall : desk.At place url (.waiting cell)) :
    ({ desk.advance place url (.fetching cell) with
      requests := desk.requests ++ [url] } : Desk α).Fits decoder url (some .filling) := by
  have hidle {other found : Nat} : ¬ desk.At other url (.fetching found) := fun hat =>
    absurd (h.filling.2 ⟨other, found, hat⟩) (by simp)
  have hown {other found : Nat}
      (hat : (desk.advance place url (.fetching cell)).At other url (.fetching found)) :
      other = place := by
    rcases (at_advance hcall).1 hat with ⟨hplace, -⟩ | ⟨-, hat⟩
    · exact hplace
    · exact absurd hat hidle
  exact {
    known := iff_of_true rfl (lookedUp_advance_self hcall rfl)
    filling := iff_of_true rfl ⟨place, cell, (at_advance hcall).2 (Or.inl ⟨rfl, rfl, rfl⟩)⟩
    one_fetching := fun hfirst hsecond => (hown hfirst).trans (hown hsecond).symm
    requested := by
      rw [List.count_append, h.requested, List.count_singleton_self]
      rfl
    received := h.received
    answered := fun hat =>
      absurd (h.answered ((at_advance_of_ne hcall (by simp) (by simp)).1 hat)) (by simp) }

theorem receive (h : desk.Fits decoder url content?) (hcall : desk.At place url (.fetching cell))
    (response : Option Json) :
    ({ desk.advance place url (.answered (read decoder response)) with
      responses := desk.responses ++ [(url, response)] } : Desk α).Fits decoder url
      (some (.filled (read decoder response))) := by
  obtain rfl : content? = some .filling := h.filling.2 ⟨place, cell, hcall⟩
  have hidle {other found : Nat} : ¬ (desk.advance place url
      (.answered (read decoder response))).At other url (.fetching found) := by
    intro hat
    rcases (at_advance hcall).1 hat with ⟨-, -, hstage⟩ | ⟨hother, hat⟩
    · cases hstage
    · exact hother (h.one_fetching hat hcall)
  have hnone : desk.responsesFor url = [] := h.received
  exact {
    known := iff_of_true rfl (lookedUp_advance_self hcall rfl)
    filling := iff_of_false (by simp) (fun ⟨_, _, hat⟩ => hidle hat)
    one_fetching := fun hfirst _ => absurd hfirst hidle
    requested := h.requested
    received := by
      refine ⟨response, ?_, rfl⟩
      unfold responsesFor at hnone ⊢
      rw [List.filter_append, List.map_append, hnone]
      simp
    answered := fun hat => by
      rcases (at_advance hcall).1 hat with ⟨-, -, hstage⟩ | ⟨-, hbefore⟩
      · rw [CallStage.answered.inj hstage]
      · exact absurd (h.answered hbefore) (by simp) }

theorem wake {answer : Option α} (h : desk.Fits decoder url (some (.filled answer)))
    (hcall : desk.At place url (.waiting cell)) :
    (desk.advance place url (.answered answer)).Fits decoder url (some (.filled answer)) where
  known := iff_of_true rfl (lookedUp_advance_self hcall rfl)
  filling := h.filling_advance hcall (by simp) (by simp)
  one_fetching := h.one_fetching_advance hcall (by simp) (by simp)
  requested := h.requested
  received := h.received
  answered hat := by
    rcases (at_advance hcall).1 hat with ⟨-, -, hstage⟩ | ⟨-, hbefore⟩
    · rw [CallStage.answered.inj hstage]
    · exact h.answered hbefore

end Fits

/-! ## What turns keep -/

/-- What holds of a table and its callers after any turns. -/
structure IsConsistent (decoder : Json.Decoder α) (desk : Desk α) : Prop where
  shares : desk.SharesCells
  fits : ∀ url, desk.Fits decoder url (desk.content? url)

namespace IsConsistent

theorem start : IsConsistent decoder ({} : Desk α) where
  shares := ⟨nofun, nofun, nofun⟩
  fits _ := {
    known := iff_of_false nofun (fun ⟨_, _, hat, _⟩ => nomatch hat)
    filling := iff_of_false nofun (fun ⟨_, _, hat⟩ => nomatch hat)
    one_fetching := nofun
    requested := rfl
    received := rfl
    answered := nofun }

theorem call (h : desk.IsConsistent decoder) (url : String) :
    (desk.call url).IsConsistent decoder where
  shares := h.shares.call url
  fits other := by
    have hfits := h.fits other
    exact {
      known := hfits.known.trans lookedUp_call.symm
      filling := hfits.filling.trans
        (exists_congr fun _ => exists_congr fun _ => by simp [at_call])
      one_fetching := fun hfirst hsecond =>
        hfits.one_fetching (by simpa [at_call] using hfirst) (by simpa [at_call] using hsecond)
      requested := hfits.requested
      received := hfits.received
      answered := fun hat => hfits.answered (by simpa [at_call] using hat) }

/-- A url fits after a turn if the url of the turn fits and no other was touched. -/
theorem fits_of_frame (h : desk.IsConsistent decoder)
    (hat : ∀ {place called stage}, called ≠ url →
      (next.At place called stage ↔ desk.At place called stage))
    (hrequests : ∀ {called}, called ≠ url → next.requests.count called = desk.requests.count called)
    (hresponses : ∀ {called}, called ≠ url → next.responsesFor called = desk.responsesFor called)
    {content : OnceCell (Option α)}
    (hcontent : ∀ called, next.content? called =
      if called = url then some content else desk.content? called)
    (hown : next.Fits decoder url (some content)) (called : String) :
    next.Fits decoder called (next.content? called) := by
  rw [hcontent]
  split
  · rename_i hsame
    exact hsame ▸ hown
  · rename_i hother
    exact (h.fits called).frame (hat hother) (hrequests hother) (hresponses hother)

theorem content?_of_waiting (h : desk.IsConsistent decoder)
    (hcall : desk.At place url (.waiting cell)) : desk.content? url = desk.cells[cell]? :=
  content?_of_slot (h.shares.held hcall rfl)

theorem exists_content (h : desk.IsConsistent decoder)
    (hcall : desk.At place url (.waiting cell)) : ∃ content, desk.content? url = some content :=
  h.shares.exists_content (h.shares.held hcall rfl)

theorem lookUp (h : desk.IsConsistent decoder) (hcall : desk.At place url .asking)
    (hslot : desk.slots.get? url = some cell) :
    (desk.advance place url (.waiting cell)).IsConsistent decoder := by
  obtain ⟨content, hcontent⟩ := h.shares.exists_content hslot
  have hown := (h.fits url).lookUp hcall cell
  rw [hcontent] at hown
  exact {
    shares := h.shares.advance hcall fun _ hfound => hslot.trans hfound
    fits := h.fits_of_frame (at_advance_of_url_ne hcall) (fun _ => rfl) (fun _ => rfl)
      (content?_eq_ite hcontent) hown }

theorem enter (h : desk.IsConsistent decoder) (hcall : desk.At place url .asking)
    (hnew : desk.slots.get? url = none) :
    ({ desk.advance place url (.waiting desk.cells.length) with
      slots := desk.slots.insert url desk.cells.length
      cells := desk.cells ++ [.empty] } : Desk α).IsConsistent decoder := by
  have hown := (h.fits url).lookUp hcall desk.cells.length
  rw [content?_of_new hnew] at hown
  have hentered := h.shares.enter hnew
  exact {
    shares := hentered.advance hcall fun found hfound => by
      obtain rfl := Option.some.inj hfound
      exact SortedMap.get?_insert_self ..
    fits := h.fits_of_frame (at_advance_of_url_ne hcall) (fun _ => rfl) (fun _ => rfl)
      h.shares.content?_enter (hown.frame Iff.rfl rfl rfl) }

theorem request (h : desk.IsConsistent decoder) (hcall : desk.At place url (.waiting cell))
    (hempty : desk.cells[cell]? = some .empty) :
    ({ desk.advance place url (.fetching cell) with
      cells := desk.cells.set cell .filling
      requests := desk.requests ++ [url] } : Desk α).IsConsistent decoder := by
  have hslot := h.shares.held hcall rfl
  have hown := h.fits url
  rw [content?_of_slot hslot, hempty] at hown
  have hmoved : (desk.advance place url (.fetching cell)).SharesCells :=
    h.shares.advance hcall fun _ hfound => hslot.trans hfound
  exact {
    shares := ⟨(hmoved.set cell .filling).placed, hmoved.apart, hmoved.held⟩
    fits := h.fits_of_frame (at_advance_of_url_ne hcall)
      (fun hother => by simp [List.count_append, hother.symm])
      (fun _ => rfl) (h.shares.content?_set hslot .filling)
      ((hown.request hcall).frame Iff.rfl rfl rfl) }

theorem receive (h : desk.IsConsistent decoder) (hcall : desk.At place url (.fetching cell))
    (response : Option Json) :
    ({ desk.advance place url (.answered (read decoder response)) with
      cells := desk.cells.set cell (.filled (read decoder response))
      responses := desk.responses ++ [(url, response)] } : Desk α).IsConsistent decoder := by
  have hslot := h.shares.held hcall rfl
  have hmoved : (desk.advance place url (.answered (read decoder response))).SharesCells :=
    h.shares.advance hcall nofun
  exact {
    shares := ⟨(hmoved.set cell (.filled (read decoder response))).placed, hmoved.apart,
      hmoved.held⟩
    fits := h.fits_of_frame (at_advance_of_url_ne hcall) (fun _ => rfl)
      (fun hother => by simp [responsesFor, List.filter_append, hother.symm])
      (h.shares.content?_set hslot _)
      (((h.fits url).receive hcall response).frame Iff.rfl rfl rfl) }

theorem wake (h : desk.IsConsistent decoder) {answer : Option α}
    (hcall : desk.At place url (.waiting cell))
    (hfilled : desk.cells[cell]? = some (.filled answer)) :
    (desk.advance place url (.answered answer)).IsConsistent decoder := by
  have hslot := h.shares.held hcall rfl
  have hcontent : desk.content? url = some (.filled answer) :=
    (content?_of_slot hslot).trans hfilled
  have hown := h.fits url
  rw [hcontent] at hown
  exact {
    shares := h.shares.advance hcall nofun
    fits := h.fits_of_frame (at_advance_of_url_ne hcall) (fun _ => rfl) (fun _ => rfl)
      (content?_eq_ite hcontent) (hown.wake hcall) }

theorem turn (h : desk.IsConsistent decoder) (hturn : desk.Turn decoder next) :
    next.IsConsistent decoder := by
  cases hturn with
  | lookUp hcall hslot => exact h.lookUp hcall hslot
  | enter hcall hnew => exact h.enter hcall hnew
  | request hcall hempty => exact h.request hcall hempty
  | receive response hcall => exact h.receive hcall response
  | wake hcall hfilled => exact h.wake hcall hfilled

/-! ## What callers are told -/

theorem one_request (h : desk.IsConsistent decoder) : desk.requests.Nodup := by
  refine List.nodup_iff_count_le_one.2 fun url => ?_
  rw [(h.fits url).requested]
  unfold requestsOf
  split <;> omega

theorem lookedUp_of_mem_requests (h : desk.IsConsistent decoder) (hmem : url ∈ desk.requests) :
    desk.LookedUp url := by
  rw [← (h.fits url).known, Option.isSome_iff_ne_none]
  intro hnone
  have hcount := (h.fits url).requested
  rw [hnone] at hcount
  exact List.count_eq_zero.1 hcount hmem

theorem answer_unique (h : desk.IsConsistent decoder) {answer found : Option α}
    (hcall : desk.At place url (.answered answer)) (hother : desk.At other url (.answered found)) :
    answer = found := by
  have hsame := ((h.fits url).answered hcall).symm.trans ((h.fits url).answered hother)
  exact OnceCell.filled.inj (Option.some.inj hsame)

theorem exists_response (h : desk.IsConsistent decoder) {answer : Option α}
    (hcall : desk.At place url (.answered answer)) :
    ∃ response, desk.responsesFor url = [response] ∧ answer = read decoder response := by
  have hreceived := (h.fits url).received
  rwa [(h.fits url).answered hcall] at hreceived

theorem size_slots (h : desk.IsConsistent decoder) :
    desk.slots.size =
      ((desk.calls.filter (fun call => call.stage.hasLookedUp)).map (·.url)).toFinset.card := by
  have hkeys : desk.slots.keys.toFinset =
      ((desk.calls.filter (fun call => call.stage.hasLookedUp)).map (·.url)).toFinset := by
    ext url
    simp only [List.mem_toFinset, SortedMap.mem_keys, contains_slots h.shares,
      (h.fits url).known, List.mem_map, List.mem_filter]
    constructor
    · rintro ⟨place, stage, hcall, hstage⟩
      exact ⟨{ url, stage }, ⟨List.mem_of_getElem? hcall, hstage⟩, rfl⟩
    · rintro ⟨call, ⟨hmem, hstage⟩, rfl⟩
      obtain ⟨place, hcall⟩ := List.mem_iff_getElem?.1 hmem
      exact ⟨place, call.stage, hcall, hstage⟩
  rw [← hkeys, List.toFinset_card_of_nodup desk.slots.nodup_keys]
  exact (List.length_map ..).symm

/-! ## Turns to take -/

/-- While someone is not answered there is a turn to take, given that requests are responded to. -/
theorem exists_turn (h : desk.IsConsistent decoder) (hopen : ¬ desk.IsDone) :
    ∃ next, desk.Turn decoder next := by
  unfold IsDone at hopen
  push Not at hopen
  obtain ⟨⟨url, stage⟩, hmem, hstage⟩ := hopen
  obtain ⟨place, hcall⟩ := List.mem_iff_getElem?.1 hmem
  cases stage with
  | asking =>
      cases hslot : desk.slots.get? url with
      | none => exact ⟨_, .enter hcall hslot⟩
      | some cell => exact ⟨_, .lookUp hcall hslot⟩
  | fetching cell => exact ⟨_, .receive none hcall⟩
  | answered answer => exact absurd rfl hstage
  | waiting cell =>
      obtain ⟨content, hcontent⟩ := h.exists_content hcall
      have hcell := (h.content?_of_waiting hcall).symm.trans hcontent
      cases content with
      | empty => exact ⟨_, .request hcall hcell⟩
      | filled answer => exact ⟨_, .wake hcall hcell⟩
      | filling =>
          obtain ⟨other, found, hfetching⟩ := (h.fits url).filling.1 hcontent
          exact ⟨_, .receive none hfetching⟩

end IsConsistent

theorem turns_advance (h : desk.At place url old) (hlt : new.turns < old.turns) :
    (desk.advance place url new).turns < desk.turns := by
  unfold At at h
  unfold turns advance
  simp only
  generalize desk.calls = calls at h ⊢
  induction calls generalizing place with
  | nil => simp at h
  | cons call rest ih =>
      cases place with
      | zero =>
          obtain rfl := Option.some.inj h
          simp [hlt]
      | succ place =>
          have hbefore : rest[place]? = some ⟨url, old⟩ := by simpa using h
          simpa using ih hbefore

theorem turns_lt_of_turn (hturn : desk.Turn decoder next) : next.turns < desk.turns := by
  cases hturn with
  | lookUp hcall _ => exact turns_advance hcall (Nat.lt_succ_self 2)
  | enter hcall _ => exact turns_advance hcall (Nat.lt_succ_self 2)
  | request hcall _ => exact turns_advance hcall (Nat.lt_succ_self 1)
  | receive response hcall => exact turns_advance hcall Nat.zero_lt_one
  | wake hcall _ => exact turns_advance hcall Nat.zero_lt_two

end CrossDoc.Desk
