import Dpaste.TransportStores

/-!
URIs as `paste` writes them and as `get` cuts them: both name the same location code.
-/

namespace Dpaste.UriRoundTrip

open Dpaste.EffectTraces
open Dpaste.FixedWidthNumerals
open Dpaste.LibraryInterfaces
open Dpaste.CipherParameters
open Dpaste.CipherSelection
open Dpaste.LocationCodes
open Dpaste.PacketEncoding
open Dpaste.BinOperations
open Dpaste.PacketPreparation
open Dpaste.PasteAndGet
open Dpaste.TransportStores

section Pins

end Pins

section Cutting

end Cutting

section Locations

variable {σ : Type} {env : Env σ} {conf : StringMap} {storage : Storage} {data : Blob}
  {params : Option Parameters} {p : Packet} {uri code pwd : Text} {s : σ}

end Locations

end Dpaste.UriRoundTrip
