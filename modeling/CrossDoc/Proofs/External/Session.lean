import CrossDoc.Proofs.External.Desk
import Mathlib.Logic.Relation

/-!
# Concurrent calls in a session

Whatever turns the callers of a session take, a url is asked for once in either table, everyone who
calls for it is told what its one response reads as, and projects are loaded as if they were alone
(`Session.memoizes_of_reachable`). A caller for a page who comes after all others are answered does
what `RemoteCache.page` does (`Desk.exists_turns_page`).
-/

namespace CrossDoc

/-! ## Loading projects -/

namespace Ticket

/-- Whether a ticket is for a project without an index, or holds the place of the call for it. -/
def IsValid (desk : Desk RemoteIndex) (ticket : Ticket) : Prop :=
  match ticket.place with
  | none => ticket.project.kind = .generic
  | some place =>
    ticket.project.kind = .myst ∧ ∃ stage, desk.At place ticket.project.indexUrl stage

theorem IsValid.mono {desk next : Desk RemoteIndex} {ticket : Ticket} (h : ticket.IsValid desk)
    (hat : ∀ place url, (∃ stage, desk.At place url stage) → ∃ stage, next.At place url stage) :
    ticket.IsValid next := by
  unfold IsValid at h ⊢
  cases hplace : ticket.place with
  | none => simpa only [hplace] using h
  | some place =>
      simp only [hplace] at h ⊢
      exact ⟨h.1, hat _ _ h.2⟩

theorem project_issue (projects : List ExternalProject) (desk : Desk RemoteIndex) :
    (issue projects desk).1.map (·.project) = projects := by
  induction projects generalizing desk with
  | nil => rfl
  | cons project rest ih =>
      unfold issue
      cases project.kind with
      | generic => simp [ih]
      | myst => simp [ih]

theorem isConsistent_issue (projects : List ExternalProject) {desk : Desk RemoteIndex}
    (h : desk.IsConsistent RemoteIndex.decode) :
    (issue projects desk).2.IsConsistent RemoteIndex.decode := by
  induction projects generalizing desk with
  | nil => exact h
  | cons project rest ih =>
      unfold issue
      cases project.kind with
      | generic => exact ih h
      | myst => exact ih (h.call project.indexUrl)

theorem at_issue (projects : List ExternalProject) {desk : Desk RemoteIndex} {place : Nat}
    {url : String} {stage : CallStage RemoteIndex} (h : desk.At place url stage) :
    (issue projects desk).2.At place url stage := by
  induction projects generalizing desk with
  | nil => exact h
  | cons project rest ih =>
      unfold issue
      cases project.kind with
      | generic => exact ih h
      | myst => exact ih (Desk.at_call.2 (Or.inl h))

theorem isValid_issue (projects : List ExternalProject) (desk : Desk RemoteIndex) :
    ∀ ticket ∈ (issue projects desk).1, ticket.IsValid (issue projects desk).2 := by
  induction projects generalizing desk with
  | nil => simp [issue]
  | cons project rest ih =>
      intro ticket hmem
      unfold issue at hmem ⊢
      cases hkind : project.kind with
      | generic =>
          simp only [hkind, List.mem_cons] at hmem ⊢
          rcases hmem with rfl | hmem
          · exact hkind
          · exact ih desk ticket hmem
      | myst =>
          simp only [hkind, List.mem_cons] at hmem ⊢
          rcases hmem with rfl | hmem
          · exact ⟨hkind, .asking, at_issue rest (Desk.at_call.2 (Or.inr ⟨rfl, rfl, rfl⟩))⟩
          · exact ih _ ticket hmem

theorem exists_ticket_of_at_issue (projects : List ExternalProject) {desk : Desk RemoteIndex}
    {place : Nat} {url : String} {stage : CallStage RemoteIndex}
    (h : (issue projects desk).2.At place url stage) :
    desk.At place url stage ∨ ∃ ticket ∈ (issue projects desk).1,
      ticket.project.kind = .myst ∧ url = ticket.project.indexUrl := by
  induction projects generalizing desk with
  | nil => exact Or.inl h
  | cons project rest ih =>
      unfold issue at h ⊢
      cases hkind : project.kind with
      | generic =>
          simp only [hkind, List.mem_cons, exists_eq_or_imp] at h ⊢
          exact (ih h).imp_right Or.inr
      | myst =>
          simp only [hkind, List.mem_cons, exists_eq_or_imp] at h ⊢
          rcases ih h with hat | hticket
          · rcases Desk.at_call.1 hat with hat | ⟨-, rfl, -⟩
            · exact Or.inl hat
            · exact Or.inr (Or.inl ⟨trivial, rfl⟩)
          · exact Or.inr (Or.inr hticket)

end Ticket

/-! ## Whole sessions -/

structure Session.IsConsistent (session : Session) : Prop where
  pages : session.pages.IsConsistent RemotePage.decode
  indices : session.indices.IsConsistent RemoteIndex.decode
  issued : ∀ load ∈ session.loads, ∀ ticket ∈ load, ticket.IsValid session.indices
  called : ∀ {place url stage}, session.indices.At place url stage → ∃ load ∈ session.loads,
    ∃ ticket ∈ load, ticket.project.kind = .myst ∧ url = ticket.project.indexUrl

namespace Session

variable {session next : Session}

theorem IsConsistent.load (h : session.IsConsistent) (projects : List ExternalProject) :
    (session.load projects).IsConsistent where
  pages := h.pages
  indices := Ticket.isConsistent_issue projects h.indices
  issued := by
    intro load hmem ticket hticket
    rcases List.mem_append.1 hmem with hmem | hmem
    · exact (h.issued load hmem ticket hticket).mono (fun place url ⟨stage, hat⟩ =>
        ⟨stage, Ticket.at_issue projects hat⟩)
    · obtain rfl := List.mem_singleton.1 hmem
      exact Ticket.isValid_issue projects session.indices ticket hticket
  called := by
    intro place url stage hat
    rcases Ticket.exists_ticket_of_at_issue projects hat with hat | hticket
    · obtain ⟨load, hmem, hticket⟩ := h.called hat
      exact ⟨load, List.mem_append_left _ hmem, hticket⟩
    · exact ⟨_, List.mem_append_right _ (List.mem_singleton_self _), hticket⟩

theorem IsConsistent.index (h : session.IsConsistent) {indices : Desk RemoteIndex}
    (hturn : session.indices.Turn RemoteIndex.decode indices) :
    ({ session with indices } : Session).IsConsistent where
  pages := h.pages
  indices := h.indices.turn hturn
  issued := fun load hmem ticket hticket => (h.issued load hmem ticket hticket).mono
    (fun _ _ => (Desk.exists_at_of_turn hturn).2)
  called := by
    intro place url stage hat
    obtain ⟨_, hbefore⟩ := (Desk.exists_at_of_turn hturn).1 ⟨stage, hat⟩
    exact h.called hbefore

theorem IsConsistent.step (h : session.IsConsistent) (hstep : session.Step next) :
    next.IsConsistent := by
  cases hstep with
  | fetch url => exact ⟨h.pages.call url, h.indices, h.issued, h.called⟩
  | load projects => exact h.load projects
  | page hturn => exact ⟨h.pages.turn hturn, h.indices, h.issued, h.called⟩
  | index hturn => exact h.index hturn

theorem Reachable.isConsistent (h : session.Reachable) : session.IsConsistent := by
  induction h with
  | start =>
      exact ⟨.start, .start, (fun _ hmem => nomatch hmem), (fun hat => nomatch hat)⟩
  | step _ hstep ih => exact ih.step hstep

end Session

/-! ## What callers and projects get -/

/-- What a project is loaded as: without an index, or with what the one response for it reads as. -/
def ExternalProject.IsLoadedAs (desk : Desk RemoteIndex) (project : ExternalProject)
    (record : ProjectReference) : Prop :=
  match project.kind with
  | .generic => record = project.unloaded
  | .myst => ∃ response, desk.responsesFor project.indexUrl = [response] ∧
      record = { project.unloaded with index := Desk.read RemoteIndex.decode response }

namespace Ticket

variable {desk : Desk RemoteIndex}

theorem isLoadedAs_of_record? (h : desk.IsConsistent RemoteIndex.decode) {ticket : Ticket}
    (hvalid : ticket.IsValid desk) {record : ProjectReference}
    (hrecord : ticket.record? desk = some record) :
    ticket.project.IsLoadedAs desk record := by
  unfold IsValid at hvalid
  unfold record? at hrecord
  unfold ExternalProject.IsLoadedAs
  cases hplace : ticket.place with
  | none =>
      simp only [hplace] at hvalid hrecord
      simp only [hvalid]
      exact (Option.some.inj hrecord).symm
  | some place =>
      simp only [hplace] at hvalid hrecord
      obtain ⟨hkind, stage, hat⟩ := hvalid
      simp only [hkind]
      rw [show desk.calls[place]? = _ from hat, Option.bind_some] at hrecord
      obtain ⟨index, hanswer, rfl⟩ := Option.map_eq_some_iff.1 hrecord
      cases stage with
      | answered answer =>
          obtain rfl : answer = index := Option.some.inj hanswer
          obtain ⟨response, hone, rfl⟩ := h.exists_response hat
          exact ⟨response, hone, rfl⟩
      | asking => cases hanswer
      | waiting cell => cases hanswer
      | fetching cell => cases hanswer

theorem isSome_record? (hdone : desk.IsDone) {ticket : Ticket} (hvalid : ticket.IsValid desk) :
    (ticket.record? desk).isSome = true := by
  unfold IsValid at hvalid
  unfold record?
  cases hplace : ticket.place with
  | none => rfl
  | some place =>
      simp only [hplace] at hvalid
      obtain ⟨-, stage, hat⟩ := hvalid
      have hanswer := hdone _ (List.mem_of_getElem? hat)
      simp only
      rw [show desk.calls[place]? = _ from hat, Option.bind_some, Option.isSome_map]
      exact hanswer

theorem records?_cons (ticket : Ticket) (rest : List Ticket) :
    records? desk (ticket :: rest) =
      (ticket.record? desk).bind (fun record => (records? desk rest).map (record :: ·)) := by
  unfold records?
  rw [List.mapM_cons]
  cases record? desk ticket with
  | none => rfl
  | some record => cases List.mapM (record? desk) rest <;> rfl

theorem isLoadedAs_of_records? (h : desk.IsConsistent RemoteIndex.decode) {load : List Ticket}
    (hvalid : ∀ ticket ∈ load, ticket.IsValid desk) {records : List ProjectReference}
    (hrecords : records? desk load = some records) :
    List.Forall₂ (ExternalProject.IsLoadedAs desk) (load.map (·.project)) records := by
  induction load generalizing records with
  | nil =>
      obtain rfl : [] = records := Option.some.inj hrecords
      exact .nil
  | cons ticket rest ih =>
      rw [records?_cons] at hrecords
      obtain ⟨record, hrecord, hmap⟩ := Option.bind_eq_some_iff.1 hrecords
      obtain ⟨records, hrest, rfl⟩ := Option.map_eq_some_iff.1 hmap
      exact .cons (isLoadedAs_of_record? h (hvalid ticket (by simp)) hrecord)
        (ih (fun other hmem => hvalid other (by simp [hmem])) hrest)

theorem isSome_records? (hdone : desk.IsDone) {load : List Ticket}
    (hvalid : ∀ ticket ∈ load, ticket.IsValid desk) :
    (records? desk load).isSome = true := by
  induction load with
  | nil => rfl
  | cons ticket rest ih =>
      obtain ⟨record, hrecord⟩ := Option.isSome_iff_exists.1
        (isSome_record? hdone (hvalid ticket (by simp)))
      rw [records?_cons, hrecord, Option.bind_some, Option.isSome_map]
      exact ih (fun other hmem => hvalid other (by simp [hmem]))

end Ticket

/-- What the callers at a table can rely on. -/
structure Desk.Memoizes {α : Type} (decoder : Json.Decoder α) (desk : Desk α) : Prop where
  one_request : desk.requests.Nodup
  asked : ∀ {url}, url ∈ desk.requests → desk.LookedUp url
  same : ∀ {place other url answer found}, desk.At place url (.answered answer) →
    desk.At other url (.answered found) → answer = found
  own : ∀ {place url answer}, desk.At place url (.answered answer) →
    ∃ response, desk.responsesFor url = [response] ∧ answer = read decoder response
  answers : (∀ next, ¬ desk.Turn decoder next) → desk.IsDone
  ends : ∀ {next}, desk.Turn decoder next → next.turns < desk.turns

theorem Desk.IsConsistent.memoizes {α : Type} {decoder : Json.Decoder α} {desk : Desk α}
    (h : desk.IsConsistent decoder) : desk.Memoizes decoder where
  one_request := h.one_request
  asked := h.lookedUp_of_mem_requests
  same := h.answer_unique
  own := h.exists_response
  answers hstuck := by
    by_contra hopen
    obtain ⟨next, hturn⟩ := h.exists_turn hopen
    exact hstuck next hturn
  ends := turns_lt_of_turn

/--
In whatever order the callers of a session take their turns, both tables memoize: no url is
requested twice, and whoever asks for a url is told what the one response for it reads as. The page
urls that are counted are those that were looked up. A list of projects is loaded in order, each
with what the response for its own index reads as, or without asking for anything if it has none.
-/
theorem Session.memoizes_of_reachable {session : Session} (h : session.Reachable) :
    session.pages.Memoizes RemotePage.decode ∧ session.indices.Memoizes RemoteIndex.decode ∧
      session.pageCount =
        ((session.pages.calls.filter (fun call => call.stage.hasLookedUp)).map
          (·.url)).toFinset.card ∧
      (∀ load ∈ session.loads,
        (session.indices.IsDone → (Ticket.records? session.indices load).isSome = true) ∧
        ∀ records, Ticket.records? session.indices load = some records →
          List.Forall₂ (ExternalProject.IsLoadedAs session.indices) (load.map (·.project))
            records) ∧
      (∀ projects, ∃ load, (session.load projects).loads = session.loads ++ [load] ∧
        load.map (·.project) = projects) ∧
      ∀ url ∈ session.indices.requests, ∃ load ∈ session.loads, ∃ ticket ∈ load,
        ticket.project.kind = .myst ∧ url = ticket.project.indexUrl := by
  have hsession := h.isConsistent
  refine ⟨hsession.pages.memoizes, hsession.indices.memoizes, hsession.pages.size_slots, ?_, ?_,
    ?_⟩
  · intro load hmem
    have hvalid := hsession.issued load hmem
    exact ⟨fun hdone => Ticket.isSome_records? hdone hvalid,
      fun records => Ticket.isLoadedAs_of_records? hsession.indices hvalid⟩
  · intro projects
    exact ⟨_, rfl, Ticket.project_issue projects session.indices⟩
  · intro url hmem
    obtain ⟨place, stage, hat, -⟩ := hsession.indices.lookedUp_of_mem_requests hmem
    exact hsession.called hat

/--
Two callers of a page that cannot be had, one of whom sends the request of the other, while a plain
project and one whose index cannot be had are loaded.
-/
theorem Session.memoizes_missing : ∃ session : Session, session.Reachable ∧
    session.pages.requests = ["m"] ∧ session.pages.requests.Nodup ∧
    session.pages.At 0 "m" (.answered none) ∧ session.pages.At 1 "m" (.answered none) ∧
    session.pageCount = 1 ∧
    let plain : ExternalProject := { key := "plain", url := "a", kind := .generic }
    let hidden : ExternalProject := { key := "hidden", url := "b" }
    session.indices.requests = [hidden.indexUrl] ∧
    ∃ load ∈ session.loads, ∃ records, Ticket.records? session.indices load = some records ∧
      List.Forall₂ (ExternalProject.IsLoadedAs session.indices) [plain, hidden] records := by
  let plain : ExternalProject := { key := "plain", url := "a", kind := .generic }
  let hidden : ExternalProject := { key := "hidden", url := "b" }
  have hcalls : Reachable _ := .step (.step (.step .start (.fetch "m")) (.fetch "m"))
    (.load [plain, hidden])
  have hlooked : Reachable _ := .step (.step (.step hcalls
    (.page (@Desk.Turn.enter _ _ _ 0 _ rfl rfl))) (.index (@Desk.Turn.enter _ _ _ 0 _ rfl rfl)))
    (.page (@Desk.Turn.lookUp _ _ _ 1 0 _ rfl rfl))
  have hrequested : Reachable _ := .step (.step hlooked
    (.page (@Desk.Turn.request _ _ _ 1 0 _ rfl rfl)))
    (.index (@Desk.Turn.request _ _ _ 0 0 _ rfl rfl))
  have hdone : Reachable _ := .step (.step (.step hrequested
    (.page (@Desk.Turn.receive _ _ _ 1 0 _ none rfl)))
    (.index (@Desk.Turn.receive _ _ _ 0 0 _ none rfl)))
    (.page (@Desk.Turn.wake _ _ _ 0 0 _ _ rfl rfl))
  obtain ⟨hpages, -, hcount, hloads, -⟩ := memoizes_of_reachable hdone
  exact ⟨_, hdone, rfl, hpages.one_request, rfl, rfl, hcount, rfl, _, List.mem_singleton_self _,
    _, rfl, (hloads _ (List.mem_singleton_self _)).2 _ rfl⟩

/-! ## One caller after another -/

namespace Desk

open Relation

variable {α : Type} {decoder : Json.Decoder α} {desk next : Desk α} {place cell : Nat}
  {url : String}

/-- What a table has for a url as its answer. -/
def answer? (desk : Desk α) (url : String) : Option (Option α) :=
  (desk.content? url).bind OnceCell.value?

def IsIdle (desk : Desk α) : Prop := ∀ url, desk.content? url ≠ some .filling

section Contents

variable {content : OnceCell (Option α)} (hcontent : ∀ called, next.content? called =
  if called = url then some content else desk.content? called)

include hcontent

theorem IsIdle.of_content (h : desk.IsIdle) (hfilled : content ≠ .filling) : next.IsIdle := by
  intro called
  rw [hcontent]
  split
  · simpa using hfilled
  · exact h called

theorem answer?_of_content (called : String) : next.answer? called =
    if called = url then content.value? else desk.answer? called := by
  unfold answer?
  rw [hcontent]
  split <;> rfl

end Contents

theorem IsConsistent.exists_lookUp (h : desk.IsConsistent decoder) (hidle : desk.IsIdle)
    (hcall : desk.At place url .asking) : ∃ looked cell, desk.Turn decoder looked ∧
      looked.At place url (.waiting cell) ∧ looked.requests = desk.requests ∧ looked.IsIdle ∧
      ∀ other, looked.answer? other = desk.answer? other := by
  cases hslot : desk.slots.get? url with
  | some cell =>
      exact ⟨_, cell, .lookUp hcall hslot, (at_advance hcall).2 (Or.inl ⟨rfl, rfl, rfl⟩), rfl,
        hidle, fun _ => rfl⟩
  | none =>
      refine ⟨_, _, .enter hcall hslot, (at_advance hcall).2 (Or.inl ⟨rfl, rfl, rfl⟩), rfl,
        hidle.of_content h.shares.content?_enter (by simp), fun other => ?_⟩
      refine (answer?_of_content h.shares.content?_enter other).trans ?_
      split
      · rename_i hsame
        rw [hsame, answer?, content?_of_new hslot]
        rfl
      · rfl

/--
A caller for a page who comes when nobody waits for a response does, with its turns and with the
response of a source, what asking for the page does.
-/
theorem exists_turns_page (source : RemoteSource) (url : String) {cache : RemoteCache}
    {desk : Desk RemotePage} (h : desk.IsConsistent RemotePage.decode) (hidle : desk.IsIdle)
    (hanswers : ∀ other, desk.answer? other = cache.pages.answer? other) :
    ∃ next sent, ReflTransGen (Turn RemotePage.decode) (desk.call url) next ∧ next.IsIdle ∧
      (∀ other, next.answer? other = (cache.page source url).2.pages.answer? other) ∧
      next.At desk.calls.length url (.answered (cache.page source url).1) ∧
      next.requests = desk.requests ++ sent ∧
      (cache.page source url).2.requests = cache.requests ++ sent := by
  obtain ⟨looked, cell, hlookUp, hwaiting, hrequests, hstill, hsame⟩ :=
    (h.call url).exists_lookUp hidle (at_call.2 (Or.inr ⟨rfl, rfl, rfl⟩))
  have hlooked := (h.call url).turn hlookUp
  obtain ⟨content, hcontent⟩ := hlooked.exists_content hwaiting
  have hcell := (hlooked.content?_of_waiting hwaiting).symm.trans hcontent
  have hknown (other : String) : looked.answer? other = cache.pages.answer? other :=
    (hsame other).trans (hanswers other)
  have hurl : cache.pages.answer? url = content.value? := by
    rw [← hknown, answer?, hcontent, Option.bind_some]
  unfold RemoteCache.page
  rw [hurl]
  cases content with
  | filling => exact absurd hcontent (hstill url)
  | filled answer =>
      exact ⟨_, [], .tail (.single hlookUp) (.wake hwaiting hcell), hstill, hknown,
        (at_advance hwaiting).2 (Or.inl ⟨rfl, rfl, rfl⟩),
        hrequests.trans (List.append_nil _).symm, (List.append_nil _).symm⟩
  | empty =>
      have hslot := hlooked.shares.held hwaiting rfl
      let answer := read RemotePage.decode (source url)
      have hfilled : ∀ called, ({ looked with
          cells := (looked.cells.set cell .filling).set cell (.filled answer) } :
          Desk RemotePage).content? called =
          if called = url then some (.filled answer) else looked.content? called := by
        rw [List.set_set]
        exact hlooked.shares.content?_set hslot (.filled answer)
      have hrequest : looked.Turn RemotePage.decode _ := .request hwaiting hcell
      have hfetching : (looked.advance desk.calls.length url (.fetching cell)).At desk.calls.length
          url (.fetching cell) := (at_advance hwaiting).2 (Or.inl ⟨rfl, rfl, rfl⟩)
      refine ⟨_, [url], .tail (.tail (.single hlookUp) hrequest) (.receive (source url) hfetching),
        hstill.of_content hfilled (by simp), fun other => ?_,
        (at_advance hfetching).2 (Or.inl ⟨rfl, rfl, rfl⟩), ?_, rfl⟩
      · refine (answer?_of_content hfilled other).trans ?_
        rw [hknown]
        exact (MemoTable.answer?_settle ..).symm
      · exact congrArg (· ++ [url]) hrequests

end Desk

end CrossDoc
