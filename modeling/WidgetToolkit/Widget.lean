import WidgetToolkit.Text.Quoted

/-!
# Widget types

A widget type has a name within a namespace. The order is that of the namespaces, then that of the
names, by code points.
-/

namespace WidgetToolkit

structure WidgetType where
  space : String
  name : String
deriving DecidableEq, Repr

namespace WidgetType

instance : ToString WidgetType := ⟨fun widget => widget.space ++ ":" ++ widget.name⟩

/-- The text for diagnostics. -/
def describe (widget : WidgetType) : String :=
  "WidgetId \x7b namespace: " ++ Text.quote widget.space ++ ", id: " ++ Text.quote widget.name ++
    " \x7d"

instance : Ord WidgetType :=
  ⟨fun a b => (compare a.space b.space).then (compare a.name b.name)⟩

end WidgetType

end WidgetToolkit
