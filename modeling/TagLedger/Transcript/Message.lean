import TagLedger.Schema.Record

/-!
# Chats and their messages

The messages of a chat are its floors, numbered from one. A chat can be cut to its first floors.

    (c.truncated n).messages = c.messages.take n.toNat         (Chat.messages_truncated)
-/

namespace TagLedger

open Schema

structure Message where
  sender : String
  text : String
  isUser : Bool
  deriving DecidableEq

/-- Who a floor is shown to be from. -/
def Message.speaker (m : Message) : String :=
  if m.isUser then "User" else if m.sender = "" then "Assistant" else m.sender

/-- A chat as the host supplies it. -/
structure Chat where
  id : String
  messages : List Message
  characterId : Option String
  deriving DecidableEq

namespace Chat

def length (c : Chat) : Nat := c.messages.length

/-- The chat with its first `n` floors only. -/
def truncated (c : Chat) (n : Int) : Chat := { c with messages := c.messages.take n.toNat }

@[simp] theorem messages_truncated (c : Chat) (n : Int) :
    (c.truncated n).messages = c.messages.take n.toNat := rfl

end Chat

/-! ## Documents -/

def Message.document (m : Message) : Json :=
  .obj [("sender", .str m.sender), ("text", .str m.text), ("isUser", .bool m.isUser)]

def Message.decode : Decoder Message :=
  record "TranscriptMessage" fun r =>
    Message.mk <$> r.optional "sender" "" Schema.text <*> r.optional "text" "" Schema.text
      <*> r.optional ⟨"isUser", "is_user"⟩ false truth

def Chat.document (c : Chat) : Json :=
  .obj [("chatId", .str c.id), ("messages", .arr (c.messages.map Message.document)),
    ("characterId", match c.characterId with
      | some s => .str s
      | none => .null)]

def Chat.decode : Decoder Chat :=
  record "ChatContext" fun r =>
    Chat.mk <$> r.required ⟨"chatId", "chat_id"⟩ Schema.text
      <*> r.optional "messages" [] (list Message.decode)
      <*> r.optional ⟨"characterId", "character_id"⟩ none (nullable Schema.text)

end TagLedger
