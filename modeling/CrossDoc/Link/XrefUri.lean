import CrossDoc.Report
import CrossDoc.Text.Basic

/-!
# References into external projects

A reference `xref:key/page#identifier` names a project by its key, maybe a page of it, and maybe a
target. A query is passed over. The scheme used to be `myst:`.
-/

namespace CrossDoc

structure XrefUri where
  key : String
  page : String
  identifier : Option String
deriving DecidableEq, Repr, Inhabited

inductive XrefUriFault where
  | otherScheme
  | blank
  | noKey
deriving DecidableEq, Repr, Inhabited

namespace XrefUriFault

def message : XrefUriFault → String
  | otherScheme => "expected an \"xref:\" scheme"
  | blank => "whitespace is not allowed"
  | noKey => "missing project key"

def failure (fault : XrefUriFault) (uri : String) : Failure := .invalidUri fault.message uri

end XrefUriFault

namespace XrefUri

def scheme : String := "xref:"

/-- The scheme that such references used to have. -/
def oldScheme : String := "myst:"

def after? (start text : String) : Option (List Char) := start.toList.isPrefixOf? text.toList

def modernize (uri : String) : String :=
  match after? oldScheme uri with
  | some rest => scheme ++ String.ofList rest
  | none => uri

def deprecation (uri : String) (link : Option Attributes) : List Diagnostic :=
  if (after? oldScheme uri).isSome then
    [{ severity := .warning
       message := "\"myst:\" prefix is deprecated for external reference \"" ++ uri ++ "\""
       rule := .mystLinkValid
       note := some ("Use \"" ++ modernize uri ++ "\" instead.")
       source := some "LinkTransform:MystTransformer"
       node := link.map Attributes.describe }]
  else []

def parseRest (rest : List Char) : Except XrefUriFault XrefUri :=
  if rest.any Text.isBlank then .error .blank
  else
    let (path, fragment) := (Text.cut? '#' rest).getD (rest, [])
    let path := ((Text.cut? '?' path).map (·.1)).getD path
    let key := path.takeWhile (· != '/')
    if key.isEmpty then .error .noKey
    else
      .ok {
        key := String.ofList key
        page := String.ofList (path.dropWhile (· != '/'))
        identifier := if fragment.isEmpty then none else some (String.ofList fragment) }

def parse (uri : String) : Except XrefUriFault XrefUri :=
  match after? scheme uri with
  | some rest => parseRest rest
  | none => .error .otherScheme

end XrefUri

end CrossDoc
