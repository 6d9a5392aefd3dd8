import HttpLifecycle.Error

namespace HttpLifecycle

inductive Exchange where
  | unary
  | requestStreaming
  | responseStreaming
  | bidiStreaming
  deriving DecidableEq, Repr

namespace Exchange

def streamsRequest : Exchange → Bool
  | requestStreaming | bidiStreaming => true
  | unary | responseStreaming => false

def streamsResponse : Exchange → Bool
  | responseStreaming | bidiStreaming => true
  | unary | requestStreaming => false

def text : Exchange → String
  | unary => "Unary"
  | requestStreaming => "RequestStreaming"
  | responseStreaming => "ResponseStreaming"
  | bidiStreaming => "BidiStreaming"

end Exchange

structure Service where
  name : String
  exchange : Exchange
  maxLength : Option Nat := none
  transient : Bool := false
  deriving DecidableEq, Repr

def Service.limit (s : Service) (default : Nat) : Nat := s.maxLength.getD default

structure Headers where
  method : String := "POST"
  path : String := "/"
  fields : List (String × String) := []
  deriving DecidableEq, Repr

/-- Whether the client asked to close after this request. Only the first
`connection` field counts, and it has to be that one word. -/
def Headers.wantsClose (h : Headers) : Bool :=
  (h.fields.find? fun f => f.1.toLower == "connection").any fun f => f.2.toLower == "close"

/-- Finds the service that a request is for, if there is one. How it does so is
up to the server. -/
abbrev Resolver := Headers → Option Service

abbrev Routes := List (String × Service)

/-- A later route takes the place of an earlier one with its path. -/
def Routes.find? (routes : Routes) (path : String) : Option Service :=
  (routes.reverse.find? fun r => r.1 == path).map (·.2)

def Routes.resolver (routes : Routes) : Resolver := fun headers => routes.find? headers.path

instance : Coe Routes Resolver := ⟨Routes.resolver⟩

end HttpLifecycle
