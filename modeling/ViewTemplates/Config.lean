import ViewTemplates.Json.Fields
import ViewTemplates.Text.Blank
import ViewTemplates.Text.Search

/-!
Compiler configuration: the interpolation markers, the tag of template elements and the text of
anchor comments.
-/

namespace ViewTemplates

structure Interpolation where
  opening : String
  closing : String
  deriving Repr, DecidableEq

/-- Does an opening marker stand in the text with a closing one behind it? -/
def Interpolation.requiresBinding (markers : Interpolation) (text : String) : Bool :=
  match Text.splitAtFirst markers.opening.toList text.toList with
  | some (_, after) => Text.contains markers.closing.toList after
  | none => false

/-- Does the text hold the beginning of a character reference? -/
def holdsReference : List Char → Bool
  | '&' :: c :: rest => c == '#' || ('a' ≤ c && c ≤ 'z') || holdsReference (c :: rest)
  | _ :: rest => holdsReference rest
  | [] => false

/-- Would the marker be mistaken for something else: control flow, nothing, a tag, a block, a
character reference or a comment? -/
def isUnusableMarker (marker : List Char) : Bool :=
  marker.contains '@' || marker.all Text.isBlank || marker.any (fun c => c == '<' || c == '>') ||
    marker == ['{'] || marker == ['}'] || holdsReference marker || ['/', '/'].isPrefixOf marker

inductive ConfigFault where
  | unusableMarkers (opening closing : String)
  | emptyTag
  | anchorText (text : String)
  deriving Repr, DecidableEq

def ConfigFault.message : ConfigFault → String
  | unusableMarkers opening closing =>
      s!"interpolation: ['{opening}', '{closing}'] contains unusable interpolation symbol."
  | emptyTag => "templateTag must not be empty"
  | anchorText text => s!"anchorText \"{text}\" cannot be placed inside a comment"

def Interpolation.validate (markers : Interpolation) : Except ConfigFault Unit :=
  if isUnusableMarker markers.opening.toList || isUnusableMarker markers.closing.toList then
    .error (.unusableMarkers markers.opening markers.closing)
  else .ok ()

structure Config where
  interpolation : Interpolation
  templateTag : String
  anchorText : String
  deriving Repr, DecidableEq

namespace Config

def default : Config := ⟨⟨"\x7b\x7b", "\x7d\x7d"⟩, "template", "template anchor"⟩

/-- The markers are usable, the tag is not blank, and the anchor text does not end a comment. -/
def validate (config : Config) : Except ConfigFault Unit :=
  match config.interpolation.validate with
  | .error fault => .error fault
  | .ok () =>
      if Text.trim config.templateTag.toList = [] then .error .emptyTag
      else if Text.contains ['-', '-'] config.anchorText.toList then
        .error (.anchorText config.anchorText)
      else .ok ()

end Config

/-! Reading from JSON. -/

namespace Config

def interpolation? : Json (Option String) → Option Interpolation
  | .array [opening, closing] => do pure ⟨← opening.string?, ← closing.string?⟩
  | _ => none

/-- The configuration in a JSON record whose fields may all be missing. -/
def ofJson? (json : Json (Option String)) : Option Config := do
  match ← Json.fields? ["interpolation", "templateTag", "anchorText"] json with
  | [interpolation, templateTag, anchorText] =>
      pure ⟨← Json.optional interpolation? default.interpolation interpolation,
        ← Json.optional Json.string? default.templateTag templateTag,
        ← Json.optional Json.string? default.anchorText anchorText⟩
  | _ => none

end Config

end ViewTemplates
