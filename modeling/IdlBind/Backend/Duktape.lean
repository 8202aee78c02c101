import IdlBind.Backend

set_option autoImplicit false

/-! # Duktape bindings

Every member symbol carries the name of the interface that declares the member. Symbols of the class
itself have three underscores in front of their role, which no escaped name can give. A dictionary
has accessors only. -/

namespace IdlBind.Duktape

/-- The engine and its names. -/
def target : Target := ⟨"duktape", "duk_libdom", "Duktape", "c"⟩

/-! ## Symbols -/

/-- The symbol of a member of an interface. -/
def symbol (interface member : String) : String := CName.symbol "dukky" [interface, member]

/-- The symbol of a class for a role of its own. -/
def classSymbol (interface role : String) : String :=
  CName.symbol "dukky" [interface] ++ "___" ++ role

/-- The macro for the hidden property with the private pointer. -/
def privateKey (interface : String) : String :=
  "DUKKY_" ++ (CName.escape interface).map Char.toUpper ++ "_PRIVATE"

/-! ## Private struct and class -/

/-- The struct with the private fields. -/
def privateDeclaration (interface : String) (fields : List PrivateField) : String :=
  "struct " ++ symbol interface "private" ++ " \x7b\n" ++
    unlines (fields.map fun f => "\t" ++ f.declaration ++ ";") ++
    "\x7d;\n\n"

/-- The key of the private pointer, the type of property rows and the declaration of the
    destructor. -/
def classDescriptor (interface : String) : String :=
  unlines
    ["/* class " ++ interface ++ " */",
     "#define " ++ privateKey interface ++ " \"\\xFF\" \"" ++ interface ++ "_private\"",
     "",
     "typedef struct \x7b",
     "\tconst char *name;",
     "\tduk_c_function getter;",
     "\tduk_c_function setter;",
     "\x7d " ++ classSymbol interface "property" ++ ";",
     "",
     "static duk_ret_t " ++ classSymbol interface "destructor" ++ "(duk_context *ctx);",
     ""]

/-! ## Stubs -/

/-- A function definition, or the comment in front of a block of them. -/
inductive Stub where
  | banner (interface : String)
  | method (symbol : String)
  | setter (symbol : String)
  | getter (symbol : String)
  deriving DecidableEq, Repr

/-- The text of a stub. -/
def Stub.text : Stub → String
  | .banner interface => blockBanner interface
  | .method symbol =>
    unlines
      ["static duk_ret_t " ++ symbol ++ "(duk_context *ctx)",
       "\x7b",
       "\treturn 0;",
       "\x7d",
       ""]
  | .setter symbol =>
    unlines
      ["static duk_ret_t " ++ symbol ++ "_setter(duk_context *ctx)",
       "\x7b",
       "\treturn 0;",
       "\x7d",
       ""]
  | .getter symbol =>
    unlines
      ["static duk_ret_t " ++ symbol ++ "_getter(duk_context *ctx)",
       "\x7b",
       "\tduk_push_undefined(ctx);",
       "\treturn 1;",
       "\x7d",
       ""]

/-- The stub of an operation, if it has a name. -/
def operationStub? (o : ResolvedOperation) : Option Stub :=
  o.name?.map fun name => .method (symbol o.interface name)

/-- The stubs of all operations, block by block; a dictionary has none. -/
def operatorStubs (m : Members) : List Stub :=
  match m.kind with
  | .dictionary => []
  | .interface =>
    m.blocks.flatMap fun b => .banner b.interface :: b.operations.filterMap operationStub?

/-- The stubs of an attribute: a setter unless it is read-only, then a getter. -/
def attributeStubs (a : ResolvedAttribute) : List Stub :=
  let name := symbol a.interface a.name
  if a.readOnly then [.getter name] else [.setter name, .getter name]

/-- The stubs of all attributes, block by block. -/
def propertyStubs (m : Members) : List Stub :=
  m.blocks.flatMap fun b => .banner b.interface :: b.attributes.flatMap attributeStubs

/-- The notices of operations that give no stub. -/
def notices (m : Members) : List String :=
  match m.kind with
  | .dictionary => []
  | .interface => m.notices

/-! ## Tables -/

/-- A row of a table, or the comment in front of a block of rows. Rows show the name of the member
    unescaped. -/
inductive Row where
  | banner (interface : String)
  | method (name symbol : String) (arity? : Option Nat)
  | property (name symbol : String) (readOnly : Bool)
  deriving DecidableEq, Repr

/-- The text of a row. Without an arity the function takes any number of arguments. -/
def Row.text : Row → String
  | .banner interface => "\t" ++ blockBanner interface
  | .method name symbol arity? =>
    let arity := match arity? with
      | some n => toString n
      | none => "DUK_VARARGS"
    "\t\x7b \"" ++ name ++ "\", " ++ symbol ++ ", " ++ arity ++ " \x7d,\n"
  | .property name symbol readOnly =>
    let setter := if readOnly then "NULL" else symbol ++ "_setter"
    "\t\x7b \"" ++ name ++ "\", " ++ symbol ++ "_getter, " ++ setter ++ " \x7d,\n"

/-- The row of an operation, if it has a name. -/
def methodRow? (o : ResolvedOperation) : Option Row :=
  o.name?.map fun name =>
    .method name (symbol o.interface name)
      (if o.isVariadic then none else some o.arguments.length)

/-- The rows of all operations, block by block; a dictionary has none. -/
def methodRows (m : Members) : List Row :=
  match m.kind with
  | .dictionary => []
  | .interface => m.blocks.flatMap fun b => .banner b.interface :: b.operations.filterMap methodRow?

/-- The row of an attribute. -/
def propertyRow (a : ResolvedAttribute) : Row :=
  .property a.name (symbol a.interface a.name) a.readOnly

/-- The rows of all attributes, block by block. -/
def propertyRows (m : Members) : List Row :=
  m.blocks.flatMap fun b => .banner b.interface :: b.attributes.map propertyRow

/-- The method table. -/
def functionSpec (interface : String) (m : Members) : String :=
  "static const duk_function_list_entry " ++ classSymbol interface "methods" ++ "[] = \x7b\n" ++
    String.join ((methodRows m).map Row.text) ++
    "\t\x7b NULL, NULL, 0 \x7d\n\x7d;\n\n"

/-- The property table. -/
def propertySpec (interface : String) (m : Members) : String :=
  "static const " ++ classSymbol interface "property" ++ " " ++
    classSymbol interface "properties" ++ "[] = \x7b\n" ++
    String.join ((propertyRows m).map Row.text) ++
    "\t\x7b NULL, NULL, NULL \x7d\n\x7d;\n\n"

/-! ## Constructors -/

/-- The parameter of the constructor for a private field. -/
def parameter (f : PrivateField) : String := ",\n\t\t" ++ f.declaration

/-- The assignment of a parameter to its private field. -/
def assignment (f : PrivateField) : String :=
  "\tpriv->" ++ f.name ++ " = " ++ f.name ++ ";\n"

/-- Destructor and constructor. The constructor takes the private fields as parameters and assigns
    them, both in the order of the binding block. -/
def constructors (interface : String) (fields : List PrivateField) : String :=
  let key := privateKey interface
  let struct := "struct " ++ symbol interface "private"
  let destructor := classSymbol interface "destructor"
  let properties := classSymbol interface "properties"
  unlines
    ["static duk_ret_t " ++ destructor ++ "(duk_context *ctx)",
     "\x7b",
     "\t" ++ struct ++ " *priv;",
     "",
     "\tduk_get_prop_string(ctx, 0, " ++ key ++ ");",
     "\tpriv = duk_get_pointer(ctx, -1);",
     "\tduk_pop(ctx);",
     "\tfree(priv);",
     "\treturn 0;",
     "\x7d",
     ""] ++
  "duk_ret_t " ++ classSymbol interface "create" ++ "(duk_context *ctx" ++
  String.join (fields.map parameter) ++
  unlines
    [")",
     "\x7b",
     "\t" ++ struct ++ " *priv;",
     "\tduk_idx_t i;",
     "",
     "\tpriv = malloc(sizeof(*priv));",
     "\tif (priv == NULL) \x7b",
     "\t\treturn DUK_RET_ERROR;",
     "\t\x7d"] ++
  String.join (fields.map assignment) ++
  unlines
    ["",
     "\tduk_push_object(ctx);",
     "\tduk_push_pointer(ctx, priv);",
     "\tduk_put_prop_string(ctx, -2, " ++ key ++ ");",
     "\tduk_push_c_function(ctx, " ++ destructor ++ ", 1);",
     "\tduk_set_finalizer(ctx, -2);",
     "\tduk_put_function_list(ctx, -1, " ++ classSymbol interface "methods" ++ ");",
     "",
     "\tfor (i = 0; " ++ properties ++ "[i].name != NULL; i++) \x7b",
     "\t\tduk_uint_t flags = DUK_DEFPROP_HAVE_GETTER | DUK_DEFPROP_HAVE_ENUMERABLE | " ++
       "DUK_DEFPROP_ENUMERABLE;",
     "",
     "\t\tduk_push_string(ctx, " ++ properties ++ "[i].name);",
     "\t\tduk_push_c_function(ctx, " ++ properties ++ "[i].getter, 0);",
     "\t\tif (" ++ properties ++ "[i].setter != NULL) \x7b",
     "\t\t\tduk_push_c_function(ctx, " ++ properties ++ "[i].setter, 1);",
     "\t\t\tflags |= DUK_DEFPROP_HAVE_SETTER;",
     "\t\t\x7d",
     "\t\tduk_def_prop(ctx, -3 - ((flags & DUK_DEFPROP_HAVE_SETTER) ? 1 : 0), flags);",
     "\t\x7d",
     "",
     "\treturn 1;",
     "\x7d"]

/-! ## The backend -/

/-- What each section holds. -/
def emit (s : Section) (d : Descriptor) : Emission :=
  match s with
  | .headerComment => headerComment d
  | .preamble => preamble d
  | .privateDeclaration => .ofExcept d.privateFields fun fields =>
    .ofText (privateDeclaration d.interface fields)
  | .classDescriptor => .ofText (classDescriptor d.interface)
  | .operatorBodies => .ofExcept d.members fun m =>
    ⟨String.join ((operatorStubs m).map Stub.text), notices m, none⟩
  | .propertyBodies => .ofExcept d.members fun m =>
    .ofText (String.join ((propertyStubs m).map Stub.text))
  | .functionSpec => .ofExcept d.members fun m => .ofText (functionSpec d.interface m)
  | .propertySpec => .ofExcept d.members fun m => .ofText (propertySpec d.interface m)
  | .constructors => .ofExcept d.privateFields fun fields =>
    .ofText (constructors d.interface fields)

/-- The backend for Duktape. -/
def backend : Backend := ⟨target, emit⟩

end IdlBind.Duktape
