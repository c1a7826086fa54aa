import HttpRouter.Router.Serve

set_option autoImplicit false

namespace HttpRouter.Cors

def headerName : Text := "Access-Control-Allow-Methods".toList

def announcement (methods : List Method) : Text := Text.join [','] (methods.map Method.name)

def announce (id : ScopeId) (ctx : Context) (request : Request) (response : Response) : Response :=
  match ctx.scope? id with
  | none => response
  | some scope =>
    match scope.allowedMethods request with
    | .error _ => response
    | .ok methods =>
      if methods.contains .options then response.setHeader headerName (announcement methods)
      else response

def middleware (id : ScopeId) : Middleware := fun next ctx request binder x =>
  next ctx request binder (x.update (announce id ctx request))

end HttpRouter.Cors
