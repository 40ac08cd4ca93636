/-
HoxServer.Net.Http — what a HTTP client sends: `hoxHttpRequest`
(`hoxTypes.cpp`).
-/
import HoxServer.Net.Text

namespace HoxServer.Net

open Lib

/-! ## Lines -/

theorem length_readLineFrom (atEnd : Result) (outLine : Bytes) (c : UInt8) (input : Bytes) :
    (readLineFrom atEnd outLine (c :: input)).2.2.length < (c :: input).length := by
  induction input generalizing outLine c with
  | nil =>
    rw [readLineFrom]
    split
    · simp
    · split <;> simp [readLineFrom]
  | cons d input ih =>
    rw [readLineFrom]
    split
    · simp
    · split
      · simp
      · exact (ih (outLine ++ [c]) d).trans (by simp)

/-- A line that is not empty has been read. -/
theorem length_readLine {input : Bytes} {atEnd result : Result} {outLine rest : Bytes}
    (h : readLine input atEnd = (result, outLine, rest)) (hline : outLine ≠ []) :
    rest.length < input.length := by
  cases input with
  | nil =>
    cases h
    exact absurd rfl hline
  | cons c input =>
    have hlt := length_readLineFrom atEnd [] c input
    rw [readLine] at h
    rwa [h] at hlt

/-! ## Requests -/

/-- `hoxHttpRequest`, without the parameters of the URI, which are not read. -/
structure HttpRequest where
  method : Bytes := []
  path : Bytes := []
  headers : Parameters := SortedMap.empty
  body : Bytes := []

namespace HttpRequest

/-- `hoxHttpRequest::parseURI`. -/
def parseURI (sURI : Bytes) : HttpRequest :=
  match tokens 32 sURI with
  | [] => {}
  | [method] => { method }
  | method :: path :: _ => { method, path := path.takeWhile fun c => c ≠ 63 }

/-- A header, cut at its first `:`. A line without one is no header. -/
def addHeader (httpRequest : HttpRequest) (sLine : Bytes) : HttpRequest :=
  if sLine.any fun c => c = 58 then
    let sKey := sLine.takeWhile fun c => c ≠ 58
    let sVal := trimLast (sLine.dropWhile fun c => c ≠ 58).tail 13
    { httpRequest with headers := Parameters.store httpRequest.headers sKey sVal }
  else httpRequest

/-- "Read headers". -/
def readHeaders (httpRequest : HttpRequest) (atEnd : Result) (input : Bytes) :
    Result × HttpRequest × Bytes :=
  match _ : readLine input atEnd with
  | (result, sLine, rest) =>
    if result ≠ .ok then (result, httpRequest, rest)
    else if _ : sLine = [] then (.closed, httpRequest, rest)
    else if sLine = bytes "\r" then (.ok, httpRequest, rest)
    else (httpRequest.addHeader sLine).readHeaders atEnd rest
  termination_by input.length
  decreasing_by exact length_readLine ‹_› ‹_›

/-- `hoxHttpRequest::continueReadRequest`. -/
def continueReadRequest (httpRequest : HttpRequest) (atEnd : Result) (input : Bytes) :
    Result × HttpRequest × Bytes :=
  match httpRequest.readHeaders atEnd input with
  | (result, httpRequest, rest) =>
    if result ≠ .ok then (result, httpRequest, rest)
    else
      let sContentLength := (httpRequest.headers.get? (bytes "Content-Length")).getD []
      if sContentLength ≠ [] then
        match readNbytes (toSizeT (atoi sContentLength)) rest with
        | (result, body, rest) =>
          (if result = .ok then .ok else .err, { httpRequest with body }, rest)
      else (.ok, httpRequest, rest)

end HttpRequest

end HoxServer.Net
