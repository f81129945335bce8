import DocStore.Json

/-!
# Connection settings

The settings of a connection to a MongoDB server, and how they are read and overridden.
-/

namespace DocStore.Mongo

/-- The time to wait for a connection unless the settings say otherwise, in seconds. -/
def defaultTimeout : Nat := 10

/-- Where the server is and which database holds the collections. -/
structure Config where
  uri : String
  database : String
  connectTimeoutSeconds : Nat := defaultTimeout
  appName : Option String := none
deriving DecidableEq, Repr

namespace Config

/-- Reads settings. The address and the database are required. -/
def ofJson? (tree : Json) : Option Config := do
  let fields ← tree.record? ["uri", "database", "connect_timeout_secs", "app_name"] 2
  let uri ← Json.required fields "uri" Json.text?
  let database ← Json.required fields "database" Json.text?
  let timeout ← Json.optional fields "connect_timeout_secs" Json.unsigned? defaultTimeout
  let appName ← Json.optional fields "app_name" (Json.nullable Json.text?) none
  some ⟨uri, database, timeout, appName⟩

/-- The settings with another time to wait, of which the whole seconds count. -/
def withTimeoutMillis (config : Config) (millis : Nat) : Config :=
  { config with connectTimeoutSeconds := millis / 1000 }

/-- The settings with a name for the application. -/
def withAppName (config : Config) (name : String) : Config :=
  { config with appName := some name }

end Config

end DocStore.Mongo
