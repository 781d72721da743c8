import SharedLinks.Request

/-!
# Links and their provider

A link is known by the creation it came from: the key it was requested for and its number among the
creations of that key. The provider answers each creation in its own time. What it has decided is a
`Gate`: shut while the answer is outstanding, then open with success or with the message of a
failure. Each creation has one gate for making the link and one for closing it; a `Prospect` says
how they stand when the creation is requested.
-/

namespace SharedLinks

/-- Which link. -/
inductive LinkId where
  /-- The link of the creation with this number among those of the key. -/
  | made (key : Key) (index : Nat)
  /-- A link from elsewhere, under a name of its own. -/
  | brought (name : String)
  deriving DecidableEq, Inhabited

/-- The text of a link's number: path, transfer path and number of the creation. -/
def LinkId.text : LinkId → String
  | made key index =>
    key.path ++ (match key.transfer with | none => "" | some t => ">" ++ t) ++ "#" ++ toString index
  | brought name => name

/-- An established link. -/
structure Link where
  id : LinkId
  /-- What the link calls itself; for messages only. -/
  identity : String
  deriving DecidableEq, Inhabited

/-- The state of an answer of the provider. -/
inductive Gate where
  /-- The answer is outstanding. -/
  | shut
  /-- The answer is success, or failure with a message. -/
  | opened (failure : Option String)
  deriving DecidableEq, Inhabited

/-- How the provider will treat one creation. -/
structure Prospect where
  /-- The answer to making the link. -/
  making : Gate := .opened none
  /-- The answer to closing it. -/
  closing : Gate := .opened none
  /-- What the link will call itself, if not by its number. -/
  identity : Option String := none
  deriving DecidableEq, Inhabited

/-- The provider: the prospect of each creation of each key. -/
abbrev Provider := Key → Nat → Prospect

/-- The link that a creation is for. -/
def Prospect.link (p : Prospect) (id : LinkId) : Link := ⟨id, p.identity.getD id.text⟩

end SharedLinks
