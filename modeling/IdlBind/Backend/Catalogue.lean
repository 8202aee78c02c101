import IdlBind.Backend.Duktape
import IdlBind.Backend.Jsapi

set_option autoImplicit false

/-! # The backends that there are -/

namespace IdlBind.Backend

/-- All backends. -/
def all : List Backend := [Jsapi.backend, Duktape.backend]

/-- The names of all backends. -/
def names : List String := all.map Backend.name

/-- The backend with a name. Some have a second name. -/
def ofName? (name : String) : Option Backend :=
  match name with
  | "jsapi" | "spidermonkey" => some Jsapi.backend
  | "duktape" | "duk" => some Duktape.backend
  | _ => none

/-- The backend for the type of a binding block. -/
def ofBindingType? (bindingType : String) : Option Backend :=
  all.find? fun b => b.target.bindingType = bindingType

end IdlBind.Backend
