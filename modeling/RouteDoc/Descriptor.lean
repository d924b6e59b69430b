import RouteDoc.Parameter
/-! Descriptors: the documentation of one route. -/
namespace RouteDoc

structure Descriptor where
  id : String
  group : String
  title : String
  description : String
  methods : List String
  uri : String
  pathParameters : List (String × Parameter Value)
  queryParameters : List (String × Parameter Value)
  bodyParameters : List (String × Parameter Value)
  authenticated : Bool
  response : Value
  showResponse : Bool
  headers : List (String × String)

end RouteDoc
