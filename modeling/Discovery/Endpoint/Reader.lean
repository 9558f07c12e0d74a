import Discovery.Endpoint
import Discovery.Json.Decode

/-!
# Endpoints in JSON

An endpoint is read from an object with the members `host`, `port`, `paths` and `parameters`, each
of which may be missing.
-/

namespace Discovery.Endpoint

open Json

def fields : List (FieldReader Endpoint) :=
  [.of "host" readString fun v e => { e with host := v },
   .of "port" readPort fun v e => { e with port := v },
   .of "paths" (readList readString) fun v e => { e with segments := v },
   .of "parameters" (readTable readString) fun v e => { e with parameters := v }]

def ofJson (bs : Bytes) : Except Category Endpoint :=
  decode (readRecord fields (ofHost "" 0)) bs

end Discovery.Endpoint
