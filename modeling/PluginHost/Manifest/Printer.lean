import PluginHost.Manifest.Basic
import PluginHost.Json.Printer

/-!
# Writing manifests

A manifest is written as an object with its fields in their order. A description
that is absent is left out.
-/

namespace PluginHost.Manifest

open Json (Value)

def descriptionMember (m : Manifest) : List (String × Value) :=
  match m.description with
  | none => []
  | some s => [("description", .string s)]

def toValue (m : Manifest) : Value :=
  .object ([("id", .string m.id), ("name", .string m.name), ("version", .string m.version)]
    ++ m.descriptionMember ++ [("capabilities", .strings m.capabilities)])

def text (m : Manifest) : String :=
  m.toValue.text

end PluginHost.Manifest
