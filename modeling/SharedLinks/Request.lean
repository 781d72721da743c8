import SharedLinks.Key

/-!
# Requests for links

A request tells the provider everything it needs to create one link: the key, the name of this
creation, the address to attach to, and the properties of the link. The address is a node under the
entity's path; the transfer path, if there is one, travels as a property.
-/

namespace SharedLinks

/-- What a provider is asked to create. -/
structure Request where
  /-- The key the link will be shared under. -/
  key : Key
  /-- The name of this creation. -/
  linkName : String
  /-- The address the link attaches to. -/
  target : String
  /-- Further properties of the link, by name. -/
  properties : List (String × String)
  deriving DecidableEq

namespace Request

/-- The property that carries the transfer path. -/
def transferProperty : String := "com.microsoft:transfer-destination-address"

/-- The request for a key's link at the given node. -/
def make (key : Key) (linkName node : String) : Request where
  key := key
  linkName := linkName
  target := key.path ++ "/" ++ node
  properties :=
    match key.transfer with
    | none => []
    | some transfer => [(transferProperty, transfer)]

/-- The request with all its parts. -/
def layout (r : Request) : Text.Layout :=
  .record "LinkRequest" [
    ("key", r.key.layout),
    ("link_name", .quote r.linkName),
    ("target_address", .quote r.target),
    ("properties", .table r.properties)]

end Request

end SharedLinks
