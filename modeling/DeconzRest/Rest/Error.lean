import DeconzRest.Qt.Text

/-!
# REST responses

What a request handler puts into `ApiResponse`: the status line and a list of
maps, each an error or a success entry.
-/

namespace DeconzRest

open QString

def httpStatusOk : String := "200 OK"
def httpStatusBadRequest : String := "400 Bad Request"
def httpStatusNotFound : String := "404 Not Found"
def httpStatusServiceUnavailable : String := "503 Service Unavailable"

def errInvalidJson : Int := 2
def errResourceNotAvailable : Int := 3
def errMissingParameter : Int := 5
def errParameterNotAvailable : Int := 6
def errInvalidValue : Int := 7
def errTooManyItems : Int := 11
def errConditionError : Int := 607
def errActionError : Int := 608
def errInternalError : Int := 901

variable {D : Type}

/-- `ApiResponse`: the status and the list of the body. -/
structure ApiResponse (D : Type) where
  httpStatus : String := httpStatusOk
  list : List (QVariant D) := []

/-- `errorToMap`; the entries of a `QVariantMap` are in the order of their keys. -/
def errorToMap (qt : Qt D) (id : Int) (ressource description : QString) : QVariant D :=
  .map [(ofLatin1 "error",
    .map [(ofLatin1 "address", .string (toHtmlEscaped ressource)),
      (ofLatin1 "description", .string (toHtmlEscaped description)),
      (ofLatin1 "type", .double (qt.ofInt id))])]

namespace ApiResponse

/-- Append an entry and answer with a status. -/
def answer (rsp : ApiResponse D) (entry : QVariant D) (httpStatus : String) : ApiResponse D :=
  { httpStatus := httpStatus, list := rsp.list ++ [entry] }

end ApiResponse

end DeconzRest
