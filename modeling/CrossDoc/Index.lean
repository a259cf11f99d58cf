import CrossDoc.Target.PageTargets

/-!
# The index of a project

The targets of every page of a project by the page's path. It is complete before anything is looked
up.
-/

namespace CrossDoc

structure IndexedPage where
  targets : PageTargets
  page : Page

instance : Inhabited IndexedPage := ⟨{ targets := default, page := default }⟩

abbrev ProjectIndex := SortedMap IndexedPage

namespace ProjectIndex

/-- Adds a page; a later page with the same path replaces it. -/
def add (index : ProjectIndex) (targets : PageTargets) (page : Page) : ProjectIndex :=
  index.insert targets.file { targets, page }

def ofPages (pages : List (PageTargets × Page)) : ProjectIndex :=
  pages.foldl (fun index entry => index.add entry.1 entry.2) ∅

def targets? (index : ProjectIndex) (file : String) : Option PageTargets :=
  (index.get? file).map (·.targets)

def ownerIn? (index : ProjectIndex) (identifier file : String) : Option (String × IndexedPage) := do
  let page ← index.get? file
  let _ ← page.targets.resolve? identifier
  some (file, page)

def firstOwner? (index : ProjectIndex) (identifier : String) : Option (String × IndexedPage) :=
  index.find? (fun _ page => (page.targets.resolve? identifier).isSome)

/--
The page that owns an identifier: the given one and no other, or the first by path if none is given.
-/
def owner? (index : ProjectIndex) (identifier : String) (file : Option String) :
    Option (String × IndexedPage) :=
  match file with
  | some file => index.ownerIn? identifier file
  | none => index.firstOwner? identifier

/-- The target that an identifier names, with the path of the page that owns it. -/
def resolve? (index : ProjectIndex) (identifier : String) (file : Option String) :
    Option (String × Target) := do
  let (path, page) ← index.owner? identifier file
  let target ← page.targets.resolve? identifier
  some (path, target)

end ProjectIndex

end CrossDoc
