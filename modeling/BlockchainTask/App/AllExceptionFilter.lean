import BlockchainTask.Common.Exception

/-! # How a request is answered

What a handler throws passes the logging interceptor, which keeps an `Exception` and
replaces anything else, and reaches the filter, which sends the exception's texts and
status. What is thrown before there is a handler reaches the filter alone. Each way
ends in one answer and one log entry. -/
namespace BlockchainTask.App.AllExceptionFilter
open BlockchainTask.Common.Exception

namespace HttpStatus

def OK : Nat := 200
def CREATED : Nat := 201
def BAD_REQUEST : Nat := 400
def NOT_FOUND : Nat := 404
def INTERNAL_SERVER_ERROR : Nat := 500

end HttpStatus

/-- An `Exception` as the filter reads it. `D` is the type of its data. -/
structure HttpException (D : Type) where
  message : String
  code : Option String
  level : ExceptionLevel
  httpCode : Nat
  data : Option D

/-- `new Exception(message, options)`. No status is `0`, so `||` only replaces a
missing one. -/
def HttpException.new {D : Type} (message : String) (httpCode : Option Nat)
    (level : Option ExceptionLevel) (data : Option D) : HttpException D where
  message := message
  code := getExceptionCode message
  level := level.getD .Fatal
  httpCode := httpCode.getD HttpStatus.INTERNAL_SERVER_ERROR
  data := data

variable {A D : Type}

def InternalException : HttpException D :=
  .new ExceptionCode.ERR000 (some HttpStatus.INTERNAL_SERVER_ERROR) (some .Fatal) none

def NotFoundAPIException : HttpException D :=
  .new ExceptionCode.ERR001 (some HttpStatus.NOT_FOUND) (some .Fatal) none

/-- What can be thrown while a request is served. -/
inductive Raised (D : Type) where
  | exception (e : HttpException D)
  /-- The framework's own `NotFoundException`. -/
  | notFound
  | error (message : Option String)

/-- What a handler of the models throws, where each of its exceptions is made with this
status. -/
def Raised.of (httpCode : Nat) : Thrown → Raised D
  | .error m => .error m
  | .exception m level _ => .exception (.new m (some httpCode) (some level) none)

inductive Body (A D : Type) where
  | payload (result : A)
  | failure (message : String) (errorCode : Option String) (data : Option D)

structure Response (A D : Type) where
  status : Nat
  body : Body A D

/-- The fields of the logger's entry that depend on the outcome. -/
structure LogEntry (D : Type) where
  success : Bool
  error : Option (Raised D)

def LogEntry.setError (e : Raised D) : LogEntry D := ⟨false, some e⟩

/-- The interceptor's `catchError`. -/
def catchError : Raised D → Raised D
  | .exception e => .exception e
  | _ => .exception InternalException

/-- The exception that the filter answers with. -/
def targetException : Raised D → HttpException D
  | .notFound => NotFoundAPIException
  | .exception e => e
  | .error _ => InternalException

/-- `AllExceptionFilter.catch`. -/
def catchException (e : Raised D) : Response A D × LogEntry D :=
  let target := targetException e
  (⟨target.httpCode, .failure target.message target.code target.data⟩, .setError e)

/-- The interceptor's `tap`. -/
def tap (status : Nat) (result : A) : Response A D × LogEntry D :=
  (⟨status, .payload result⟩, ⟨decide (status / 100 = 2), none⟩)

/-- A request that has a handler; `status` is the one of its method. -/
def answer (status : Nat) : Except (Raised D) A → Response A D × LogEntry D
  | .ok result => tap status result
  | .error e => catchException (catchError e)

end BlockchainTask.App.AllExceptionFilter
