import SharedLinks.Key

/-!
# Errors

`BuildError` says why a hub cannot be set up, `LinkError` what may go wrong with links afterwards.
A failed creation or close carries its cause, which is a plain message from the provider or again
an error of this library. `text` is the message, `sources` the messages of the causes below it.
-/

namespace SharedLinks

/-- The names that a hub's settings may not leave empty. -/
inductive NamePart where
  | linkNameSuffix
  | managementNode
  deriving DecidableEq

/-- What the name is called in messages. -/
def NamePart.text : NamePart → String
  | .linkNameSuffix => "link name suffix"
  | .managementNode => "management node"

/-- Why a hub cannot be set up. -/
inductive BuildError where
  /-- Nobody would create the links. -/
  | providerRequired
  /-- Nobody would carry out the jobs. -/
  | spawnerRequired
  /-- A name was left empty. -/
  | emptyName (part : NamePart)
  deriving DecidableEq

namespace BuildError

/-- The message of the error. -/
def text : BuildError → String
  | providerRequired => "a link cache requires a link provider"
  | spawnerRequired => "a link cache requires a task spawner or the 'tokio' feature"
  | emptyName part => "the " ++ part.text ++ " must not be empty"

/-- The name of the kind of error. -/
def kind : BuildError → String
  | providerRequired => "ProviderRequired"
  | spawnerRequired => "SpawnerRequired"
  | emptyName _ => "EmptyName"

/-- The error with its parts. -/
def layout : BuildError → Text.Layout
  | emptyName part => .tuple "EmptyName" [.quote part.text]
  | e => .word e.kind

end BuildError

mutual

/-- What may go wrong with a link. -/
inductive LinkError where
  /-- The link could not be established. -/
  | creation (key : Key) (cause : Cause)
  /-- The link could not be closed. -/
  | close (key : Key) (identity : String) (cause : Cause)
  /-- Some of the links of a teardown could not be closed. -/
  | closeAll (failures : List LinkError)
  /-- A release found no reference to give back. -/
  | unbalancedRelease (key : Key)

/-- What made a creation or a close fail. -/
inductive Cause where
  /-- A message from the provider. -/
  | message (text : String)
  /-- An error about links. -/
  | link (error : LinkError)
  /-- An error about settings. -/
  | build (error : BuildError)

end

deriving instance Inhabited for LinkError, Cause

namespace LinkError

/-- The message of the error. -/
def text : LinkError → String
  | creation key _ => "failed to create link for '" ++ key.text ++ "'"
  | close key identity _ => "failed to close link '" ++ identity ++ "' for '" ++ key.text ++ "'"
  | closeAll failures => toString failures.length ++ " link(s) failed to close"
  | unbalancedRelease key =>
    "release of '" ++ key.text ++ "' does not match any outstanding acquire"

/-- The key concerned, if it is a single one. -/
def key? : LinkError → Option Key
  | creation key _ | close key _ _ | unbalancedRelease key => some key
  | closeAll _ => none

/-- The name of the kind of error. -/
def kind : LinkError → String
  | creation .. => "Creation"
  | close .. => "Close"
  | closeAll _ => "CloseAll"
  | unbalancedRelease _ => "UnbalancedRelease"

/-- The cause, if the error has one. A failed teardown has many failures but no cause. -/
def cause? : LinkError → Option Cause
  | creation _ cause | close _ _ cause => some cause
  | closeAll _ | unbalancedRelease _ => none

end LinkError

/-- The message of a cause. -/
def Cause.text : Cause → String
  | message text => text
  | link error => error.text
  | build error => error.text

mutual

/-- The messages of the causes of an error, the nearest first. -/
def LinkError.sources : LinkError → List String
  | .creation _ cause => cause.sources
  | .close _ _ cause => cause.sources
  | .closeAll _ => []
  | .unbalancedRelease _ => []

/-- The message of a cause and of the causes below it. -/
def Cause.sources : Cause → List String
  | .message text => [text]
  | .link error => error.text :: error.sources
  | .build error => [error.text]

end

mutual

/-- The error with its parts. -/
def LinkError.layout : LinkError → Text.Layout
  | .creation key cause =>
    .record "Creation" [("key", key.layout), ("source", cause.layout)]
  | .close key identity cause =>
    .record "Close" [("key", key.layout), ("identity", .quote identity), ("source", cause.layout)]
  | .closeAll failures => .tuple "CloseAll" [.list (LinkError.layouts failures)]
  | .unbalancedRelease key => .record "UnbalancedRelease" [("key", key.layout)]

/-- The layouts of several errors. -/
def LinkError.layouts : List LinkError → List Text.Layout
  | [] => []
  | error :: errors => error.layout :: LinkError.layouts errors

/-- The cause with its parts. -/
def Cause.layout : Cause → Text.Layout
  | .message text => .tuple "MockError" [.quote text]
  | .link error => error.layout
  | .build error => error.layout

end

end SharedLinks
