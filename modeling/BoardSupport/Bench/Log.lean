/-! Logs of what a device was asked, as tokens. -/
namespace BoardSupport.Bench

/-- A token that came `count` times in a row. -/
def repeated (token : String) (count : Nat) : String :=
  if count ≤ 1 then token else token ++ "*" ++ toString count

/-- Tokens with a blank between them, each run of equal ones as one token and its length. The run
before `rest` is `count` times `token`. -/
def writeRuns (token : String) (count : Nat) : List String → List String
  | [] => [repeated token count]
  | next :: rest =>
    if next == token then writeRuns token (count + 1) rest
    else repeated token count :: writeRuns next 1 rest

def logText : List String → String
  | [] => ""
  | token :: rest => " ".intercalate (writeRuns token 1 rest)

/-- A log that is still being written, latest token first. -/
structure Log where
  latest : List String := []

namespace Log

def add (log : Log) (token : String) : Log := ⟨token :: log.latest⟩

def text (log : Log) : String := logText log.latest.reverse

end Log

end BoardSupport.Bench
