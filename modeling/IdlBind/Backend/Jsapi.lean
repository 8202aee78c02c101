import IdlBind.Backend

set_option autoImplicit false

/-! # SpiderMonkey bindings

Stubs and tables use the macros of the JSAPI, which take the bare names of the members. -/

namespace IdlBind.Jsapi

/-- The engine and its names. -/
def target : Target := ⟨"jsapi", "js_libdom", "SpiderMonkey", "c"⟩

/-! ## Private struct and class -/

/-- The struct with the private fields. -/
def privateDeclaration (fields : List PrivateField) : String :=
  "struct jsclass_private \x7b\n" ++
    unlines (fields.map fun f => "        " ++ f.declaration ++ ";") ++
    "\x7d;\n\n"

/-- The class structure, which shows the name of the interface unescaped. -/
def classDescriptor (interface : String) : String :=
  unlines
    ["static void jsclass_finalize(JSContext *cx, JSObject *obj);",
     "static JSBool jsclass_resolve(JSContext *cx, JSObject *obj, jsval id, uintN flags, " ++
       "JSObject **objp);",
     "",
     "JSClass JSClass_" ++ CName.escape interface ++ " = \x7b",
     "        \"" ++ interface ++ "\",",
     "\tJSCLASS_NEW_RESOLVE | JSCLASS_HAS_PRIVATE,",
     "\tJS_PropertyStub,",
     "\tJS_PropertyStub,",
     "\tJS_PropertyStub,",
     "\tJS_StrictPropertyStub,",
     "\tJS_EnumerateStub,",
     "\t(JSResolveOp)jsclass_resolve,",
     "\tJS_ConvertStub,",
     "\tjsclass_finalize,",
     "\tJSCLASS_NO_OPTIONAL_MEMBERS",
     "\x7d;",
     ""]

/-! ## Stubs -/

/-- A function definition, or the comment in front of a block of them. -/
inductive Stub where
  | banner (interface : String)
  | native (name : String)
  | setter (name : String)
  | getter (name : String)
  deriving DecidableEq, Repr

/-- The text of a stub. -/
def Stub.text : Stub → String
  | .banner interface => blockBanner interface
  | .native name =>
    unlines
      ["static JSBool JSAPI_NATIVE(" ++ name ++ ", JSContext *cx, uintN argc, jsval *vp)",
       "\x7b",
       "\tJS_SET_RVAL(cx, vp, JSVAL_VOID);",
       "\treturn JS_TRUE;",
       "\x7d",
       ""]
  | .setter name =>
    unlines
      ["static JSBool JSAPI_PROPERTYSET(" ++ name ++ ", JSContext *cx, JSObject *obj, jsval *vp)",
       "\x7b",
       "        return JS_FALSE;",
       "\x7d",
       ""]
  | .getter name =>
    unlines
      ["static JSBool JSAPI_PROPERTYGET(" ++ name ++ ", JSContext *cx, JSObject *obj, jsval *vp)",
       "\x7b",
       "\tJS_SET_RVAL(cx, vp, JSVAL_NULL);",
       "\treturn JS_TRUE;",
       "\x7d",
       ""]

/-- The stub of an operation, if it has a name. -/
def operationStub? (o : ResolvedOperation) : Option Stub :=
  o.name?.map fun name => .native (CName.identifier name)

/-- The stubs of all operations, block by block. -/
def operatorStubs (m : Members) : List Stub :=
  m.blocks.flatMap fun b => .banner b.interface :: b.operations.filterMap operationStub?

/-- The stubs of an attribute: a setter unless it is read-only, then a getter. -/
def attributeStubs (a : ResolvedAttribute) : List Stub :=
  let name := CName.identifier a.name
  if a.readOnly then [.getter name] else [.setter name, .getter name]

/-- The stubs of all attributes, block by block. -/
def propertyStubs (m : Members) : List Stub :=
  m.blocks.flatMap fun b => .banner b.interface :: b.attributes.flatMap attributeStubs

/-! ## Tables -/

/-- A row of a table, or the comment in front of a block of rows. -/
inductive Row where
  | banner (interface : String)
  | function (name : String)
  | property (name : String) (readOnly : Bool)
  deriving DecidableEq, Repr

/-- The text of a row. -/
def Row.text : Row → String
  | .banner interface => "    " ++ blockBanner interface
  | .function name => "    JSAPI_FS(" ++ name ++ ", 0, 0),\n"
  | .property name readOnly =>
    "    " ++ (if readOnly then "JSAPI_PS_RO" else "JSAPI_PS") ++ "(" ++ name ++
      ", 0, JSPROP_ENUMERATE | JSPROP_SHARED),\n"

/-- The row of an operation, if it has a name. -/
def functionRow? (o : ResolvedOperation) : Option Row :=
  o.name?.map fun name => .function (CName.identifier name)

/-- The rows of all operations, block by block. -/
def functionRows (m : Members) : List Row :=
  m.blocks.flatMap fun b => .banner b.interface :: b.operations.filterMap functionRow?

/-- The row of an attribute. -/
def propertyRow (a : ResolvedAttribute) : Row := .property (CName.identifier a.name) a.readOnly

/-- The rows of all attributes, block by block. -/
def propertyRows (m : Members) : List Row :=
  m.blocks.flatMap fun b => .banner b.interface :: b.attributes.map propertyRow

/-- The function table. -/
def functionSpec (m : Members) : String :=
  "static JSFunctionSpec jsclass_functions[] = \x7b\n" ++
    String.join ((functionRows m).map Row.text) ++
    "   JSAPI_FS_END\n\x7d;\n\n"

/-- The property table. -/
def propertySpec (m : Members) : String :=
  "static JSPropertySpec jsclass_properties[] = \x7b\n" ++
    String.join ((propertyRows m).map Row.text) ++
    "    JSAPI_PS_END\n\x7d;\n\n"

/-! ## Constructors -/

/-- The parameter of the constructor for a private field. -/
def parameter (f : PrivateField) : String := ",\n\t\t" ++ f.declaration

/-- The assignment of a parameter to its private field. -/
def assignment (f : PrivateField) : String :=
  "\tprivate->" ++ f.name ++ " = " ++ f.name ++ ";\n"

/-- Finalizer, resolver, class initialiser and constructor. The constructor takes the private fields
    as parameters and assigns them, both in the order of the binding block. -/
def constructors (interface : String) (fields : List PrivateField) : String :=
  let name := CName.escape interface
  unlines
    ["static void jsclass_finalize(JSContext *cx, JSObject *obj)",
     "\x7b",
     "\tstruct jsclass_private *private;",
     "",
     "\tprivate = JS_GetInstancePrivate(cx, obj, &JSClass_" ++ name ++ ", NULL);",
     "\tif (private != NULL) \x7b",
     "\t\tfree(private);",
     "\t\x7d",
     "\x7d",
     "",
     "static JSBool jsclass_resolve(JSContext *cx, JSObject *obj, jsval id, uintN flags, " ++
       "JSObject **objp)",
     "\x7b",
     "\t*objp = NULL;",
     "\treturn JS_TRUE;",
     "\x7d",
     "",
     "JSObject *jsapi_InitClass_" ++ name ++ "(JSContext *cx, JSObject *parent)",
     "\x7b",
     "\tJSObject *jsobject;",
     "",
     "\tjsobject = JS_InitClass(cx,",
     "\t\tparent,",
     "\t\tNULL,",
     "\t\t&JSClass_" ++ name ++ ",",
     "\t\tNULL,",
     "\t\t0,",
     "\t\tjsclass_properties,",
     "\t\tjsclass_functions,",
     "\t\tNULL,",
     "\t\tNULL);",
     "\treturn jsobject;",
     "\x7d",
     ""] ++
  "JSObject *jsapi_new_" ++ name ++ "(JSContext *cx,\n\t\tJSObject *proto,\n\t\tJSObject *parent" ++
  String.join (fields.map parameter) ++
  unlines
    [")",
     "\x7b",
     "\tJSObject *jsobject;",
     "\tstruct jsclass_private *private;",
     "",
     "\tprivate = malloc(sizeof(struct jsclass_private));",
     "\tif (private == NULL) \x7b",
     "\t\treturn NULL;",
     "\t\x7d"] ++
  String.join (fields.map assignment) ++
  unlines
    ["",
     "\tjsobject = JS_NewObject(cx, &JSClass_" ++ name ++ ", proto, parent);",
     "\tif (jsobject == NULL) \x7b",
     "\t\tfree(private);",
     "\t\treturn NULL;",
     "\t\x7d",
     "",
     "\t/* attach private pointer */",
     "\tif (JS_SetPrivate(cx, jsobject, private) != JS_TRUE) \x7b",
     "\t\tfree(private);",
     "\t\treturn NULL;",
     "\t\x7d",
     "",
     "\treturn jsobject;",
     "\x7d"]

/-! ## The backend -/

/-- What each section holds. -/
def emit (s : Section) (d : Descriptor) : Emission :=
  match s with
  | .headerComment => headerComment d
  | .preamble => preamble d
  | .privateDeclaration =>
    .ofExcept d.privateFields fun fields => .ofText (privateDeclaration fields)
  | .classDescriptor => .ofText (classDescriptor d.interface)
  | .operatorBodies => .ofExcept d.members fun m =>
    ⟨String.join ((operatorStubs m).map Stub.text), m.notices, none⟩
  | .propertyBodies => .ofExcept d.members fun m =>
    .ofText (String.join ((propertyStubs m).map Stub.text))
  | .functionSpec => .ofExcept d.members fun m => .ofText (functionSpec m)
  | .propertySpec => .ofExcept d.members fun m => .ofText (propertySpec m)
  | .constructors => .ofExcept d.privateFields fun fields =>
    .ofText (constructors d.interface fields)

/-- The backend for SpiderMonkey. -/
def backend : Backend := ⟨target, emit⟩

end IdlBind.Jsapi
