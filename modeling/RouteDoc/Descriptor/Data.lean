import RouteDoc.Data
import RouteDoc.Descriptor
/-! Descriptors as data. -/
namespace RouteDoc

def Parameter.toData (room : Nat) (p : Parameter Value) : Option Data :=
  (Data.ofValue room p.sample).map fun sample => .mapping [
    ("name", .text p.name),
    ("type", .text p.type),
    ("description", .text p.description),
    ("required", .bool p.required),
    ("example_value", sample)]

def tableData (room : Nat) (ps : List (String × Parameter Value)) : Option Data :=
  (ps.mapM fun ((name, p) : String × Parameter Value) =>
    (p.toData room).map fun d => (name, d)).map .mapping

def Descriptor.toData (room : Nat) (d : Descriptor) : Option Data := do
  let path ← tableData room d.pathParameters
  let query ← tableData room d.queryParameters
  let body ← tableData room d.bodyParameters
  let response ← Data.ofValue room d.response
  return .mapping [
    ("id", .text d.id),
    ("group", .text d.group),
    ("title", .text d.title),
    ("description", .text d.description),
    ("methods", .texts d.methods),
    ("uri", .text d.uri),
    ("path_parameters", path),
    ("query_parameters", query),
    ("body_parameters", body),
    ("authenticated", .bool d.authenticated),
    ("response", response),
    ("showresponse", .bool d.showResponse),
    ("headers", .mapping (d.headers.map fun (name, v) => (name, .text v)))]

end RouteDoc
