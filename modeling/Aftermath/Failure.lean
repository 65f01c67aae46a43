import Aftermath.Key

/-! What can go wrong around a command: the server refuses it, the network loses it, the transport
cannot subscribe, a hook fails. Each error has one wording, and the post errors fall into two
categories, which decide the hooks that hear of them. -/

namespace Aftermath

/-- The server answered and said no. The code is for programs, not part of the wording. -/
structure ServerError where
  message : String
  code : Option String := none
deriving DecidableEq, Repr

/-- The transport lost the server. -/
structure NetworkError where
  message : String
deriving DecidableEq, Repr

def ServerError.text (e : ServerError) : String := "server error: " ++ e.message

def NetworkError.text (e : NetworkError) : String := "network error: " ++ e.message

inductive PostError where
  | server (e : ServerError)
  | network (e : NetworkError)
deriving DecidableEq, Repr

def PostError.text : PostError → String
  | .server e => e.text
  | .network e => e.text

inductive Category where
  | server
  | network
deriving DecidableEq, Repr

def Category.label : Category → String
  | .server => "server error"
  | .network => "network error"

def PostError.category : PostError → Category
  | .server _ => .server
  | .network _ => .network

inductive SubscribeError where
  | refused (key : Key) (reason : String)
  | disconnected (key : Key) (source : NetworkError)
deriving DecidableEq, Repr

def SubscribeError.text : SubscribeError → String
  | .refused key reason => "subscription to " ++ key.label ++ " refused: " ++ reason
  | .disconnected key source => "cannot subscribe to " ++ key.label ++ ": " ++ source.text

/-- The error behind the error: only a lost connection has one. -/
def SubscribeError.source? : SubscribeError → Option NetworkError
  | .refused _ _ => none
  | .disconnected _ source => some source

/-- An error of a hook, wrapped by its contexts; the first context is the innermost. -/
structure HookError where
  message : String
  contexts : List String := []
deriving DecidableEq, Repr

/-- The error and its contexts from the outside in. -/
def HookError.chain (e : HookError) : List String := e.contexts.reverse ++ [e.message]

def HookError.text (e : HookError) : String := ": ".intercalate e.chain

/-- Any of the errors that compare with one another; errors of different sorts are unequal. -/
inductive AnyError where
  | server (e : ServerError)
  | network (e : NetworkError)
  | post (e : PostError)
  | subscribe (e : SubscribeError)
deriving DecidableEq, Repr

def AnyError.text : AnyError → String
  | .server e => e.text
  | .network e => e.text
  | .post e => e.text
  | .subscribe e => e.text

def AnyError.source? : AnyError → Option NetworkError
  | .subscribe e => e.source?
  | _ => none

end Aftermath
