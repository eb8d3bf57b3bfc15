import ModelDirectives.Document
import ModelDirectives.Json.Layout

namespace ModelDirectives

open Json (Fault Field Layout Reader)
open Json.Reader (mapping sequence text variant)

namespace AnnotationEntry

def layout : Layout AnnotationEntry where
  title := "RawAnnotation"
  fields := [
    Field.mandatory "name" text fun x r => { r with name := x },
    Field.optional "parameters" mapping fun x r => { r with parameters := x }]
  blank := ⟨"", []⟩

end AnnotationEntry

namespace AttributeEntry

def layout : Layout AttributeEntry where
  title := "RawAttribute"
  fields := [
    Field.mandatory "name" text fun x r => { r with name := x },
    Field.mandatory "type" text fun x r => { r with typeName := x },
    Field.optional "annotations" (sequence AnnotationEntry.layout.record) fun x r =>
      { r with annotations := x }]
  blank := ⟨"", "", []⟩

end AttributeEntry

namespace MemberEntry

def layout : Layout MemberEntry where
  title := "RawMember"
  fields := [
    Field.mandatory "name" text fun x r => { r with name := x },
    Field.optional "annotations" (sequence AnnotationEntry.layout.record) fun x r =>
      { r with annotations := x }]
  blank := ⟨"", []⟩

end MemberEntry

namespace TypeEntry

def layout : Layout TypeEntry where
  title := "RawType"
  fields := [
    Field.mandatory "name" text fun x r => { r with name := x },
    Field.optional "kind" (variant (TypeKind.all.map fun k => (k.label, k))) fun x r =>
      { r with kind := x },
    Field.optional "annotations" (sequence AnnotationEntry.layout.record) fun x r =>
      { r with annotations := x },
    Field.optional "attributes" (sequence AttributeEntry.layout.record) fun x r =>
      { r with attributes := x },
    Field.optional "methods" (sequence MemberEntry.layout.record) fun x r =>
      { r with methods := x },
    Field.optional "values" (sequence MemberEntry.layout.record) fun x r =>
      { r with values := x }]
  blank := ⟨"", .classType, [], [], [], []⟩

end TypeEntry

namespace Document

def layout : Layout Document where
  title := "ModelSpec"
  fields := [Field.optional "types" (sequence TypeEntry.layout.record) fun x r =>
    { r with types := x }]
  blank := ⟨[]⟩

def read (s : String) : Except Fault Document :=
  Json.readAll layout.record s

end Document

end ModelDirectives
