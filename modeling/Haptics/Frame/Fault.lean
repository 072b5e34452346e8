/-!
# Faults of frame streams

Why a frame was not written or not read.
-/

namespace Haptics

inductive StreamFault
  /-- The frame is longer than frames may be. -/
  | tooLarge (size : Nat)
  /-- No frame began in time. -/
  | noFrame
  /-- A frame began and did not go on in time. -/
  | noMore
  /-- There was no time left to read the rest of a frame. -/
  | noTimeToRead
  /-- The stream ended before or within the length of a frame. -/
  | endedInHead
  /-- The stream ended within the payload of a frame. -/
  | endedInPayload
  /-- The peer closed the stream with bytes unread. -/
  | reset
  /-- The stream takes no more bytes. -/
  | broken
  /-- There was no time left to write the frame. -/
  | noTimeToWrite
  /-- One cannot wait on what is no socket. -/
  | notASocket
  /-- One cannot read from what is no socket. -/
  | unreadable
  /-- One cannot write to what is no socket. -/
  | unwritable
  /-- Waiting on the socket failed. -/
  | waitFailed (why : String)
  /-- Waiting on the socket showed that it is broken. -/
  | waitBroken
  | readFailed (why : String)
  | writeFailed (why : String)
  /-- The system took no byte, and gave no reason. -/
  | nothingTaken
deriving DecidableEq, Repr

def StreamFault.message : StreamFault → String
  | tooLarge size => "Frame too large: " ++ toString size ++ " bytes"
  | noFrame => "Timeout waiting for frame"
  | noMore => "Timeout waiting for data chunk"
  | noTimeToRead => "Timeout reading frame"
  | endedInHead => "EOF reading frame length"
  | endedInPayload => "EOF reading frame payload"
  | reset => "Read failed: Connection reset by peer"
  | broken => "Broken pipe (peer closed)"
  | noTimeToWrite => "Timeout writing frame"
  | notASocket => "Invalid socket"
  | unreadable => "Read failed: Bad file descriptor"
  | unwritable => "Write failed: Bad file descriptor"
  | waitFailed why => "poll failed: " ++ why
  | waitBroken => "poll error on socket"
  | readFailed why => "Read failed: " ++ why
  | writeFailed why => "Write failed: " ++ why
  | nothingTaken => "Write returned 0 bytes"

end Haptics
