import PgpInspect.Service
import PgpInspect.Proofs.Assembly.Independence
import PgpInspect.Proofs.Assembly.Tracking
import PgpInspect.Proofs.Framing.Acceptance
import PgpInspect.Proofs.Binary64
import PgpInspect.Proofs.KeyData
import PgpInspect.Proofs.Packet.PublicKey
import PgpInspect.Proofs.Assembly.SecretKeyring
import PgpInspect.Proofs.Key.Expiry
import PgpInspect.Proofs.Key.Capability
import PgpInspect.Proofs.Key.Usage
import PgpInspect.Proofs.Text.Base64
import PgpInspect.Proofs.Armor.Written
import PgpInspect.Proofs.Armor.RoundTrip
import PgpInspect.Proofs.KeyData.Ascii
import PgpInspect.Proofs.Service.Reply
import PgpInspect.Proofs.Service.Routes
import PgpInspect.Proofs.Packet.WrittenKey
import PgpInspect.Proofs.Packet.StatedLength
import PgpInspect.Proofs.Http.Headers
import PgpInspect.Proofs.Service.ReplyFields
import PgpInspect.Proofs.Service.Status
import PgpInspect.Proofs.Framing.Boundaries
import PgpInspect.Proofs.Packet.Acceptance
import PgpInspect.Proofs.Packet.Subpacket
import PgpInspect.Proofs.Packet.Signature
import PgpInspect.Proofs.Assembly.Warnings
import PgpInspect.Proofs.Assembly.Growth
import PgpInspect.Proofs.Key.Claims
import PgpInspect.Proofs.Key.Rederivation
import PgpInspect.Proofs.Key.Identities
import PgpInspect.Proofs.Key.Aging
import PgpInspect.Proofs.Packet.UserId
import PgpInspect.Proofs.Packet.Record
import PgpInspect.Proofs.Key.Size
import PgpInspect.Proofs.Autocrypt.Contents
import PgpInspect.Proofs.Service.KeyText
import PgpInspect.Proofs.Packet.Curve
import PgpInspect.Proofs.Packet.Consumption
import PgpInspect.Proofs.Framing.Walk
import PgpInspect.Proofs.Assembly.References
