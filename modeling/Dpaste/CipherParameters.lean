import Dpaste.LibraryInterfaces

/-!
The parameters of the ciphers. Constructors that leave fields without a value
take them from a `Storage`, the arbitrary content of the memory in which the
object is built.
-/

namespace Dpaste.CipherParameters

open Dpaste.LibraryInterfaces

/-- What the storage that the program does not initialise happens to hold: the local `scheme`
of `prepare_data`, an enumeration over `int`, and two fields of `GPGParameters`. -/
structure Storage where
  scheme : Int
  selfRecipient : Bool
  sign : Bool

structure GPGParameters where
  keyId : Text
  recipients : List Text
  selfRecipient : Bool
  sign : Bool

def GPGParameters.unset (storage : Storage) : GPGParameters where
  keyId := []
  recipients := []
  selfRecipient := storage.selfRecipient
  sign := storage.sign

def GPGParameters.ofKeyId (storage : Storage) (keyId : Text) : GPGParameters where
  keyId := keyId
  recipients := []
  selfRecipient := storage.selfRecipient
  sign := storage.sign

def GPGParameters.ofRecipients (recipients : List Text)
    (selfRecipient sign : Bool) : GPGParameters where
  keyId := []
  recipients := recipients
  selfRecipient := selfRecipient
  sign := sign

structure AESParameters where
  password : Text

/-- `std::variant<GPGParameters, AESParameters>`. A null pointer to it is `none`. -/
inductive Parameters
  | gpg (p : GPGParameters)
  | aes (p : AESParameters)

end Dpaste.CipherParameters
