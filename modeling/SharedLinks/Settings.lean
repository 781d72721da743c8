import SharedLinks.Hub.Basic

/-!
# Settings of a hub

A hub is set up from a provider and, optionally, a way to dispatch jobs, a suffix for link names and
the node that links attach to. Without a provider, or with an empty name, there is no hub. Without a
dispatch the ambient one is taken, if there is any.
-/

namespace SharedLinks

/-- What a hub is set up from. -/
structure Settings where
  provider : Option Provider := none
  dispatch : Option Dispatch := none
  /-- What every link name ends in. -/
  linkNameSuffix : String := "RequestResponse"
  /-- The node under each entity that links attach to. -/
  managementNode : String := "$management"

/-- One choice about the settings. -/
inductive Setting where
  | provider (provider : Provider)
  | dispatch (dispatch : Dispatch)
  | linkNameSuffix (suffix : String)
  | managementNode (node : String)

namespace Settings

/-- Makes a choice, in place of an earlier one. -/
def choose (s : Settings) : Setting → Settings
  | .provider provider => { s with provider := some provider }
  | .dispatch dispatch => { s with dispatch := some dispatch }
  | .linkNameSuffix suffix => { s with linkNameSuffix := suffix }
  | .managementNode node => { s with managementNode := node }

/-- The settings after some choices, made in order. -/
def ofChoices (choices : List Setting) : Settings := choices.foldl choose {}

/-- The first reason why there would be no hub, the dispatch left aside. -/
def validate (s : Settings) : Except BuildError Unit :=
  if s.provider.isNone then .error .providerRequired
  else if s.linkNameSuffix.isEmpty then .error (.emptyName .linkNameSuffix)
  else if s.managementNode.isEmpty then .error (.emptyName .managementNode)
  else .ok ()

/-- Sets a hub up. Its names start at the seed; `ambient` is the dispatch to fall back on. -/
def build (s : Settings) (seed : UInt64) (ambient : Option Dispatch) : Except BuildError Hub :=
  match s.validate, s.provider, s.dispatch <|> ambient with
  | .error e, _, _ => .error e
  | .ok (), none, _ => .error .providerRequired
  | .ok (), some _, none => .error .spawnerRequired
  | .ok (), some provider, some dispatch => .ok
    { provider := provider
      dispatch := dispatch
      node := s.managementNode
      namer := .ofSeed seed s.linkNameSuffix }

/-- The settings; of provider and dispatch only whether they are set. -/
def layout (s : Settings) : Text.Layout :=
  .record "LinkCacheBuilder" [
    ("has_provider", .truth s.provider.isSome),
    ("has_spawner", .truth s.dispatch.isSome),
    ("link_name_suffix", .quote s.linkNameSuffix),
    ("management_node", .quote s.managementNode)]

end Settings

end SharedLinks
