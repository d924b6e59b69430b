import RouteDoc.Comment
/-! The group of a route: its handler's comment decides, then the comment of the handler's
container, then a default. -/
namespace RouteDoc

namespace Comment

def firstTag? (name : String) (tags : List Tag) : Option String :=
  (tags.find? (·.name == name)).map (·.content)

def group? (c : Comment) : Option String := firstTag? "group" c.tags

end Comment

def groupOf (docstring container : Option String) (default : String) : String :=
  ((Comment.ofDocstring docstring).group?.or (Comment.ofDocstring container).group?).getD default

end RouteDoc
