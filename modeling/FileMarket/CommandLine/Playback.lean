import FileMarket.CommandLine.Run

/-!
# Runs as playback

A run is a function of what the outside has said so far: the replies over the wire and
the lines typed. Where it asks for more than that, the question is kept, and the run is
played again once the outside has answered. So the program needs no more of the outside
than to send one request, or to read one line, and never both at once.
-/

namespace FileMarket.CommandLine

/-- The replies that are still to be played, and the first request beyond them. -/
structure Playback where
  replies : List (Option Http.Reply)
  request : Option Http.Request

/-- The wire as it answered before; beyond that nobody answers. -/
def Playback.transport : Http.Transport Playback := fun request playback =>
  match playback.replies with
  | reply :: rest => (reply, { playback with replies := rest })
  | [] => (none, { playback with request := playback.request.or (some request) })

/-- What the outside has said so far. -/
structure Transcript where
  replies : List (Option Http.Reply)
  typed : List Char
  /-- Whether no more will be typed. -/
  closed : Bool

/-- What a run needs next. -/
inductive Next where
  /-- A reply to a request. -/
  | send (request : Http.Request)
  /-- A line, after the text printed so far has been shown. -/
  | read (printed : String)
  /-- Nothing: the run has ended. -/
  | finish (ending : Ending Playback)

/-- Plays a run as far as the transcript goes. -/
def next (around : Surroundings) (words : List String) (transcript : Transcript) : Next :=
  let ending := run around Playback.transport ⟨transcript.replies, none⟩ transcript.typed words
  match transcript.closed, ending.console.starved, ending.console.world.server.request with
  | false, some (⟨_, none⟩, printed), _ => .read printed
  | _, _, some request => .send request
  | _, _, none => .finish ending

end FileMarket.CommandLine
