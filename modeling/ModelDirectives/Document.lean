import ModelDirectives.Json.Value
import ModelDirectives.Model

namespace ModelDirectives

structure AnnotationEntry where
  name : String
  parameters : List (String × Json)
  deriving Repr

structure AttributeEntry where
  name : String
  typeName : String
  annotations : List AnnotationEntry
  deriving Repr

/-- A method or an enum value. -/
structure MemberEntry where
  name : String
  annotations : List AnnotationEntry
  deriving Repr

structure TypeEntry where
  name : String
  kind : TypeKind
  annotations : List AnnotationEntry
  attributes : List AttributeEntry
  methods : List MemberEntry
  values : List MemberEntry
  deriving Repr

/-- What a model file says, before its names and values are checked. -/
structure Document where
  types : List TypeEntry
  deriving Repr

end ModelDirectives
