/-
**The command line.**

The program reads its command line, prepares what it asks for, and carries on with that until it is
told to stop.  Everything that a connection, a session or a client does is decided elsewhere; here
bytes are carried to it when they arrive, and away from it when it has written them.

Main definitions:

* `LineChat.serveChat`, `LineChat.receiveMessages`, `LineChat.chat` — the tasks that go on until
  they are told to stop;
* `main` — **the program**.
-/

import LineChat.CommandLine.Usage
import LineChat.Program.Hosted
import LineChat.Program.Run
import Std.Async.Signal
import Std.Sync.CancellationToken
import Std.Sync.Channel
import Std.Sync.Mutex

set_option autoImplicit false

namespace LineChat

open Std.Async

/-! ### Stopping -/

/-- A token that is cancelled when the program is told to stop. -/
def stopToken : Async Std.CancellationToken := do
  let token ← Std.CancellationToken.new
  let terminate ← Signal.Waiter.mk .sigterm false
  let interrupt ← Signal.Waiter.mk .sigint false
  background do
    Selectable.one #[.case terminate.selector pure, .case interrupt.selector pure]
    token.cancel
  return token

/-- A token that is cancelled after so many seconds, or never. -/
def clockToken (seconds : Option Nat) : Async Std.CancellationToken := do
  let token ← Std.CancellationToken.new
  if let some seconds := seconds then
    background do
      sleep (.ofNat (1000 * seconds))
      token.cancel
  return token

/-! ### Printing and reading -/

/-- Prints a line that is seen at once. -/
def printLine (line : String) : IO Unit := do
  let out ← IO.getStdout
  out.putStrLn line
  out.flush

/-- Reads up to the end of a line, behind the bytes that were read already. -/
partial def readLine (input : IO.FS.Stream) (before : ByteArray) : IO ByteArray := do
  let piece ← input.read 1
  let line := before ++ piece
  if piece.isEmpty || piece.toList == [10] then return line else readLine input line

/-- Passes on the lines of the standard input up to its end. -/
partial def readInput (lines : Std.CloseableChannel (Except IoError String)) : IO Unit := do
  let read : Except IoError Bytes ←
    try pure (.ok (← readLine (← IO.getStdin) .empty).toList) catch e => pure (.error (failureOf e))
  if read.toOption = some [] then lines.close
  else
    discard (lines.send (read.bind ChatClient.typedLine))
    readInput lines

/-! ### Listening -/

/-- What is done with a connection, given where it comes from. -/
abbrev Service := Address → TCP.Socket.Client → Async Unit

/-- A socket that listens. -/
def listenAt (address : Address) : Async (Except ProgramError TCP.Socket.Server) :=
  return (← onMachine do
    let listener ← TCP.Socket.Server.mk
    listener.bind address.toMachine
    listener.listen 1024
    return listener).mapError (.notListening address)

/-- Serves every connection, beside the others, until the program is told to stop; what is still
going on then is given back. -/
partial def serveAll (listener : TCP.Socket.Server) (stop : Std.CancellationToken)
    (serve : Service) (running : List (AsyncTask Unit)) : Async (List (AsyncTask Unit)) := do
  let accepted ← onMachine <| Selectable.one
    #[.case stop.selector fun _ => return none,
      .case listener.acceptSelector fun s => return some s]
  match accepted with
  | .ok none => return running
  | .error _ => serveAll listener stop serve running
  | .ok (some socket) =>
      let task ← async do
        match ← onMachine (liftM socket.getPeerName) with
        | .ok peer => serve (.ofMachine peer) socket
        | .error _ => pure ()
      let running ← running.filterM fun task => return !(← IO.hasFinished task)
      serveAll listener stop serve (task :: running)

/-! ### Serving a chat -/

/-- One session of a server carried on until it is over.  If its connection breaks, the other side
counts as having hung up. -/
partial def runSession (server : Std.Mutex (ChatServer Unit)) (i : Nat) (socket : TCP.Socket.Client)
    (stop clock : Std.CancellationToken) : Async Unit := do
  let (bytes, session) ← server.atomically <| modifyGet fun v =>
    let (bytes, v) := (v.settle i).takeOutgoing i
    ((bytes, v.sessions[i]?), v)
  let sent ← NetworkAccess.send (m := Async) socket bytes
  match session with
  | none => pure ()
  | some c =>
      if c.isOver then NetworkAccess.close (m := Async) socket
      else
        let limits := if c.isHandshaking then
          #[.case clock.selector fun _ => return [ChatServer.Action.expire i]] else #[]
        let actions ← match sent with
          | .error _ => pure [ChatServer.Action.hangUp i]
          | .ok () => do
              let received ← onMachine <| Selectable.one <| limits ++
                #[.case stop.selector fun _ => return [.stop, .interrupt i],
                  .case (socket.recvSelector pieceSize) fun
                    | some bytes => return [.arrive i bytes.toList]
                    | none => return [.finish i]]
              pure (received.toOption.getD [.hangUp i])
        server.atomically <| modify fun v => actions.foldl ChatServer.tryStep v
        runSession server i socket stop clock

/-- **Serves a chat.** -/
def serveChat (address : Address) (server : ChatServer Unit) :
    Async (Except ProgramError Unit) := do
  match ← listenAt address with
  | .error e => return .error e
  | .ok listener =>
      let stop ← stopToken
      let limit := server.handshakeLimit
      let server ← Std.Mutex.new server
      let running ← serveAll listener stop (fun peer socket => do
        let material ← HandshakeMaterial.draw
        let i ← server.atomically <| modifyGet fun v =>
          (v.sessions.length, v.tryStep (.accept peer material))
        runSession server i socket stop (← clockToken limit)) []
      running.forM fun task => await task
      return .ok ()

/-! ### Receiving private messages -/

/-- **Receives private messages** and prints them. -/
def receiveMessages (address : Address) (secret : SharedSecret) :
    Async (Except ProgramError Unit) := do
  match ← listenAt address with
  | .error e => return .error e
  | .ok listener =>
      let stop ← stopToken
      discard <| serveAll listener stop (fun peer socket =>
        discard (receivePrivateMessage (m := Async) secret peer socket fun message =>
          printLine message.render)) []
      return .ok ()

/-! ### Taking part in a chat -/

/-- Prints the lines that come from a server up to the last one. -/
partial def printLines (client : Std.Mutex ChatClient) (socket : TCP.Socket.Client)
    (closing : Std.CancellationToken) : Async Unit := do
  let (lines, ended) ← client.atomically <| modifyGet fun c =>
    let (lines, ended, c) := c.pump.readAll catchAll
    ((lines, ended), c)
  lines.forM fun line => liftM (printLine line)
  if !ended then
    let finished (c : ChatClient) : ChatClient := { c with wire := c.wire.finish }
    let change ← onMachine <| Selectable.one
      #[.case closing.selector fun _ => return ChatClient.close,
        .case (socket.recvSelector pieceSize) fun
          | some bytes => return fun c => { c with wire := c.wire.arrive bytes.toList }
          | none => return finished]
    client.atomically (modify (change.toOption.getD finished))
    printLines client socket closing

/-- Sends the lines of the standard input up to its end, or until the program is told to stop. -/
partial def sendLines (client : Std.Mutex ChatClient) (socket : TCP.Socket.Client)
    (stop : Std.CancellationToken) (input : Std.CloseableChannel (Except IoError String)) :
    Async (Except ProgramError Unit) := do
  let line ← Selectable.one
    #[.case stop.selector fun _ => return none, .case input.recvSelector pure]
  match line with
  | none => return .ok ()
  | some (.error e) => return .error (.unreadableInput e)
  | some (.ok line) =>
      let (written, bytes) ← client.atomically <| modifyGet fun c =>
        let (written, c) := c.send line
        let (bytes, c) := c.takeOutgoing
        ((written, bytes), c)
      let sent ← NetworkAccess.send (m := Async) socket bytes
      match written, sent with
      | .error e, _ => return .error (.disconnected e)
      | _, .error e => return .error (.disconnected (.ofIo e))
      | .ok (), .ok () => sendLines client socket stop input

/-- **Takes part in a chat**: sends the lines of the standard input, and prints those that come. -/
def chat (wire : Wire Async (LineCodec SessionCipher)) : Async (Except ProgramError Unit) := do
  match ChatClient.open wire.link wire.seen [] with
  | .error e => return .error (.disconnected e)
  | .ok client =>
      let client ← Std.Mutex.new client
      let stop ← stopToken
      let closing ← Std.CancellationToken.new
      let printer ← async (printLines client wire.socket closing)
      let input ← Std.CloseableChannel.new
      discard <| IO.asTask (readInput input) .dedicated
      let result ← sendLines client wire.socket stop input
      if let .error e := result then return .error e
      NetworkAccess.close (m := Async) wire.socket
      closing.cancel
      await printer
      return .ok ()

/-! ### The program -/

/-- What a command line asks for, done. -/
def carryOut (i : Invocation) : Async (Except ProgramError Unit) := do
  match ← prepare (m := Async) (← surroundings) (← today) i with
  | .error e => return .error e
  | .ok (.finished output) =>
      (← IO.getStdout).putStr output
      return .ok ()
  | .ok (.serve address server) => serveChat address server
  | .ok (.receive address secret) => receiveMessages address secret
  | .ok (.chat wire) => chat wire

/-- What is shown of a command line that is not carried out. -/
def showRefusal (r : CommandLine.Refusal) : IO Unit := do
  match r with
  | .help => IO.print CommandLine.usage
  | .version => IO.print programVersion
  | .nothing => IO.eprint CommandLine.usage
  | r => IO.eprint s!"error: {r.message}\n\n{CommandLine.usage}"

end LineChat

/-- **The program.** -/
def main (words : List String) : IO UInt32 := do
  match LineChat.Invocation.parse words with
  | .error r =>
      LineChat.showRefusal r
      return .ofNat r.exitCode
  | .ok i =>
      match ← (LineChat.carryOut i).block with
      | .ok () => return 0
      | .error e =>
          IO.eprint (LineChat.renderFailure e.messages)
          return 1
