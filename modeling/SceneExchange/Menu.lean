/-!
# Operators and menus of the editor

Registering makes the operators known to the editor and adds an entry for each to its menu; what is
registered is taken back in the order menus, operators.
-/

namespace SceneExchange.Menu

inductive Operator where
  | exporter | importer
  deriving Repr, DecidableEq

namespace Operator

def id : Operator → String
  | .exporter => "export_scene.datasmith"
  | .importer => "import_scene.datasmith"

def menu : Operator → String
  | .exporter => "export_menu"
  | .importer => "import_menu"

def entry : Operator → String
  | .exporter => "menu_func_export"
  | .importer => "menu_func_import"

def all : List Operator := [.exporter, .importer]

end Operator

abbrev Call := List String

def register : List Call :=
  Operator.all.map (fun o => ["register_class", o.id]) ++
    Operator.all.map fun o => [o.menu, "append", o.entry]

def unregister : List Call :=
  Operator.all.map (fun o => [o.menu, "remove", o.entry]) ++
    Operator.all.map fun o => ["unregister_class", o.id]

def draw (o : Operator) : List Call := [["operator", o.id, "Datasmith (.udatasmith)"]]

inductive Step where
  | register | unregister | draw (o : Operator) | reload | pushContext
  deriving Repr, DecidableEq

inductive Answer where
  | calls (calls : List Call)
  | contexts (contexts : List String)
  deriving Repr, DecidableEq

def Step.run (contexts : List String) : Step → List String × Answer
  | .register => (contexts, .calls Menu.register)
  | .unregister => (contexts, .calls Menu.unregister)
  | .draw o => (contexts, .calls (Menu.draw o))
  | .reload => ([], .calls [])
  | .pushContext => (contexts ++ ["BUMP"], .contexts (contexts ++ ["BUMP"]))

end SceneExchange.Menu
