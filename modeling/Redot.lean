import Redot.Basic
import Redot.Validator.Messages
import Redot.Validator.Worker
import Redot.Validator.Slots
import Redot.Validator.Publish
import Redot.Validator.Replies
import Redot.Validator.Network
import Redot.Validator.SignGossip
import Redot.Network.AddrCache
import Redot.Network.Record
