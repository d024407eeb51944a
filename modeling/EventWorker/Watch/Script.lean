import EventWorker.Watch

/-!
# Scripted sources

A source whose readings and subscriptions are given beforehand. The last reading goes on for ever, and
a subscription beyond the last one yields nothing.
-/

namespace EventWorker

structure Script where
  readings : List Reading := []
  feeds : List (Except ClusterError Feed) := []
  logs : Except ClusterError String := .ok ""
  /-- How many readings and subscriptions there have been. -/
  looks : Nat := 0

namespace Script

def looked (s : Script) : Script :=
  { s with looks := s.looks + 1 }

def nextReading (s : Script) : Reading × Script :=
  match s.readings with
  | [] => ({ result := .ok none }, s.looked)
  | [r] => (r, s.looked)
  | r :: rest => (r, { s.looked with readings := rest })

def nextFeed (s : Script) : Except ClusterError Feed × Script :=
  match s.feeds with
  | [] => (.ok {}, s.looked)
  | f :: rest => (f, { s.looked with feeds := rest })

def source : Source Script where
  read _ := nextReading
  subscribe _ := nextFeed
  logs _ s := (s.logs, s)

end Script

end EventWorker
