import Graced.Borsh

/-!
# Known programs

A program id is one of the fifty listed below or is kept as an unknown key. The
table is used in one direction to classify an instruction and in the other to
recover the id of a classified one. Six programs are never parsed as swaps.

A key is the number that its thirty-two bytes spell, most significant first; the
base-58 text that the source gives stands beside it.
-/

namespace Graced

/-- An account address: thirty-two bytes. -/
structure Pubkey where
  raw : BitVec 256
deriving DecidableEq, Repr

namespace Pubkey

/-- The key with the given bytes. -/
def ofBytes (bytes : Bytes) : Pubkey :=
  ⟨BitVec.ofNat 256 (bytes.foldl (fun higher byte => 256 * higher + byte.toNat) 0)⟩

/-- A key inside a binary record. -/
def read : Borsh.Reader Pubkey := do return ofBytes (← Borsh.take 32)

/-- `Pubkey::default()`, all zero. -/
instance : Inhabited Pubkey := ⟨⟨0⟩⟩

end Pubkey

/-- What the classification of a program id can be. -/
inductive Program where
  | aldrinV1
  | aldrinV2
  | alphaQ
  | aquifer
  | axiomTrade
  | binanceWalletProgram
  | bisonFi
  | bonkSwap
  | byreal
  | deriverse
  | dflowAgg
  | drift
  | gmgn
  | gmx
  | goonFi
  | goonFiV2
  | gooseFx
  | heaven
  | humidiFi
  | jupV6
  | launchLab
  | lifinityV2
  | mangoV4
  | manifest
  | meteoraDBC
  | meteoraDLMM
  | meteoraDAMMV2
  | meteoraPools
  | mercurialStableSwap
  | obricV2
  | okxRouter
  | okxDexRouter2
  | orca
  | pancakeSwap
  | phoenix
  | pump
  | pumpAmm
  | raydiumClmm
  | raydiumCpSwap
  | raydiumV4
  | sarosAmm
  | sarosDLMM
  | scorch
  | solFi
  | solFiV2
  | stabbleStable
  | stabbleWeighted
  | tesseraV
  | titanExchangeRouter
  | zeroFi
  | unknown (key : Pubkey)
deriving DecidableEq, Repr

namespace Ids

/-- `AMM55ShdkoGRB5jVYPjWziwk8m5MpwyDgsMWHaMSQWH6` -/
def aldrinV1 : Pubkey :=
  ⟨0x8aef7df7e3a674a43ed18156220e0306fa47878b93207e2495e59eedbbda4ca1⟩

/-- `CURVGoZn8zycx6FXwwevgBTB2gVvdbGTEpvMJDbgs2t4` -/
def aldrinV2 : Pubkey :=
  ⟨0xaa76ed143b56625ed758b68ac51d0003cc5e87c78872e640deec408802bb08b5⟩

/-- `ALPHAQmeA7bjrVuccPsYPiCvsi428SNwte66Srvs4pHA` -/
def alphaQ : Pubkey :=
  ⟨0x8ab0688461397e679cc47b10009e50fc184a59de618ecc70bbad9731ecf4aebd⟩

/-- `AQU1FRd7papthgdrwPTTq5JacJh8YtwEXaBfKU3bTz45` -/
def aquifer : Pubkey :=
  ⟨0x8bbc13258a8175d1c8f918d11d75bb9df3a2260b8cfba2e6b31e002198ae10e6⟩

/-- `FLASHX8DrLbgeR8FcfNV1F5krxYcYMUdBkrP1EPBtxB9` -/
def axiomTrade : Pubkey :=
  ⟨0xd4ec525447ddd3935b8ad9d419bd7617cbaf39de624a036f3b902582f342e6a0⟩

/-- `B3111yJCeHBcA1bizdJjUFPALfhAfSRnAbJzGUtnt56A` -/
def binanceWalletProgram : Pubkey :=
  ⟨0x951807fd3e07e91ba568058398b53e105a12f3cfcc09a390daffd7fdb5555fa3⟩

/-- `BiSoNHVpsVZW2F7rx2eQ59yQwKxzU5NvBcmKshCSUypi` -/
def bisonFi : Pubkey :=
  ⟨0x9f32da9c1f6c1250c09b733923ecc3670d2863e7d46a9c1cf47dfdbbd0d5fe57⟩

/-- `BSwp6bEBihVLdqJRKGgzjcGLHkcTuzmSo1TQkHepzH8p` -/
def bonkSwap : Pubkey :=
  ⟨0x9b3a5d9985cd63dcc86291b48e4346d69dab3663f231f0c75f6fc48476ec6f7d⟩

/-- `REALQqNEomY6cQGZJUGwywTBD2UmDT32rZcNnfxQ5N2` -/
def byreal : Pubkey :=
  ⟨0x634d20f1bf56dd164e3c13c7836a4229ec5ab21ff54528390a51789f3cdbbdb⟩

/-- `DRVSpZ2YUYYKgZP8XtLhAGtT1zYSCKzeHfb4DgRnrgqD` -/
def deriverse : Pubkey :=
  ⟨0xb89258789c952e0f14bdab2a705585135da2b43447b210b4754cd2c15d2110a0⟩

/-- `DF1ow4tspfHX9JwWJsAb9epbkA8hmpSEAtxXy1V27QBH` -/
def dflowAgg : Pubkey :=
  ⟨0xb5e34a14e2bc7348690ee1f5af5deed6553840a36daab860b0506073bdc03c10⟩

/-- `dRiftyHA39MWEi3m9aunc5MzRF1JYuBsbn6VPcn33UH` -/
def drift : Pubkey :=
  ⟨0x954dbbe9ec960c98a7a293fe21336966fe180d151ae4b8179561f89854a53f6⟩

/-- `goonERTdGsjnkZqWuVjs73BZ3Pb9qoCUdBUL17BnS5j` -/
def goonFi : Pubkey :=
  ⟨0xa32936d61fea6d8b606e706c2a174b16b67a5824b0fd4ada9f86ad4cd98657e⟩

/-- `goonuddtQRrWqqn5nFyczVKaie28f3kDkHWkHtURSLE` -/
def goonFiV2 : Pubkey :=
  ⟨0xa32937c463db0442e65a3b05e55b302ca5dc743f2c8df5673fd43ef744cf0af⟩

/-- `GMgnVFR8Jb39LoXsEVzb3DvBy3ywCmdmJquHUy1Lrkqb` -/
def gmgn : Pubkey :=
  ⟨0xe42be77f0b1bd0462582933b36fa497c0738d07b18f1fd6b17fbd79ecc405366⟩

/-- `Gmso1uvJnLbawvw7yezdfCDcPydwW2s2iqG3w6MDucLo` -/
def gmx : Pubkey :=
  ⟨0xea5e4aafe4d0a7725518129578db4c820c36fc5093aa6a1213c0827d6ed54408⟩

/-- `GAMMA7meSFWaBXF25oSUgmGRwaW6sCMFLmBNiMSdbHVT` -/
def gooseFx : Pubkey :=
  ⟨0xe14489c834bda18e955811c8e496a949a83ab9eda376e14580f37fd5b4593162⟩

/-- `HEAVENoP2qxoeuF8Dj2oT1GHEnu49U5mJYkdeC8BAX2o` -/
def heaven : Pubkey :=
  ⟨0xf11a449d46b98508822f426a0490132f445500841f0d9389a6d88bbc743c7f48⟩

/-- `9H6tua7jkLhdm3w8BvgpTn5LZNU7g4ZynDmCiNN3q6Rp` -/
def humidiFi : Pubkey :=
  ⟨0x7afd742b27f759e9c670703cd39d817aa0930ace3b52d26d54a054dd2387bbd3⟩

/-- `JUP6LkbZbjS1jKKwapdHNy74zcZ3tLUZoi5QNyVTaV4` -/
def jupV6 : Pubkey :=
  ⟨0x479d55bf231c06eee74c56ece681507fdb1b2dea3f48e5102b1cda256bc138f⟩

/-- `LanMV9sAd7wArD4vJFi2qDdfnVhFxYSUg6eADduJ3uj` -/
def launchLab : Pubkey :=
  ⟨0x5043b954dca26e1ef91b52c4f8f89af8a6f5ac8c62156f171cf0f21ac51c922⟩

/-- `2wT8Yq49kHgDzXuPxZSaeLaH1qbmGXtEyPy64bL7aD3c` -/
def lifinityV2 : Pubkey :=
  ⟨0x1cce9898356deb3f2c348dcaa2404f558e90ec35cae339dac655042d640357af⟩

/-- `4MangoMjqJ2firMokCjjGgoK8d4MXcrgL7XJaL3w6fVg` -/
def mangoV4 : Pubkey :=
  ⟨0x31d8e17dde0f59c18e075b98ca9d6b65c8fa24ed506d206c5ebe3c180f02377f⟩

/-- `MNFSTqtC93rEfYHB6hF82sKdZpUDFWkViLByLd1k1Ms` -/
def manifest : Pubkey :=
  ⟨0x537a47738da25a988f964d99ba43a88cf1187395b6acf1483f570228d8002b2⟩

/-- `MERLuDFBMmsHnsBPZw2sDQZHvXFMwp8EdjudcU2HKky` -/
def mercurialStableSwap : Pubkey :=
  ⟨0x52eca368763a5955f62734e40e772978388ec2bd8f50c6bf223f22d247b42ae⟩

/-- `Eo7WjKq67rjJQSZxS6z3YkapzY3eMj6Xy8X5EQVn5UaB` -/
def meteoraPools : Pubkey :=
  ⟨0xccf802d4cccc84d7fb21b5f73b49d81a16c5b4c88ee32394e1c91d3588cc4080⟩

/-- `cpamdpZCGKUy5JxQXB4dcpGPiikHawvSWAd6mEn1sGG` -/
def meteoraDammV2 : Pubkey :=
  ⟨0x92d2135657a159c2b87d4b66a70db8e9752389ff76aaf206ced063a38f95aed⟩

/-- `dbcij3LWUppWqq96dh6gJWwBifmcGfLSB5D4DuSMaqN` -/
def meteoraDbc : Pubkey :=
  ⟨0x9600ca524f7b1b7d6ccb1c3973aa0330d1903da601cc9b5dee3c662b4cad149⟩

/-- `LBUZKhRxPF3XUpBCjp4YzTKgLccjZhTSDM9YuVaPwxo` -/
def meteoraDlmm : Pubkey :=
  ⟨0x4e9e12fbc84e826c932cce9e2640cce15590c1c6273b0925708ba3b8520b0bc⟩

/-- `obriQD1zbpyLz95G5n7nJe6a4DPjpFwa5XYPoNm113y` -/
def obricV2 : Pubkey :=
  ⟨0xbf0215baa9f9418f76f0f3cddd20d48b23fc7b50a6b8699994bd3376a5e0f0c⟩

/-- `6m2CDdhRgxpH4WjvdzxAYbGxwdGUz5MziiL5jek2kBma` -/
def okxRouter : Pubkey :=
  ⟨0x559156f1a25c6d134f2af7e60a9a0d347ec79156636462d5d1ad26f135348f69⟩

/-- `proVF4pMXVaYqmy4NjniPh4pqKNfMmsihgd4wdkCX3u` -/
def okxDexRouter2 : Pubkey :=
  ⟨0xc429bd7c18f50f8156d9afc1cdde72df668d9ab3becaf6b570d5766645ad9c8⟩

/-- `whirLbMiicVdio4qvUfM5KAg6Ct8VwpYzGff3uctyCc` -/
def orca : Pubkey :=
  ⟨0xe03685f8e909053e458121c66f5a76aedc7706aa11c82f8aa952a8f2b7879a9⟩

/-- `HpNfyc2Saw7RKkQd8nEL4khUcuPhQ7WwY1B2qjx8jxFq` -/
def pancakeSwap : Pubkey :=
  ⟨0xf9ddcb1fe2f88ebbac5f5b97b4b90ad49551962b89419d765284622845e41cf8⟩

/-- `PhoeNiXZ8ByJGLkxNfZRnkUfjvmuYqLR89jjFHGqdXY` -/
def phoenix : Pubkey :=
  ⟨0x5d0ea4f33737013a563e09348edb6f4593d91fc7641f9247c2441a842a1bbeb⟩

/-- `6EF8rrecthR5Dkzon8Nwu78hRvfCKubJ14M5uBEwF6P` -/
def pump : Pubkey :=
  ⟨0x156e0f693665acf44db1568bf175baa5189cb97f5d2ff3b655d2bb6fd6d18b0⟩

/-- `pAMMBay6oceH9fJKBRHGP5D4bD4sWpmSwMn52FMfXEA` -/
def pumpAmm : Pubkey :=
  ⟨0xc14defc825ec67694250818bb654065f4298d3156d571b4d4f8090c18e9a863⟩

/-- `CAMMCzo5YL8w4VFF8KVHrK22GGUsp5VTaW7grrKgrWqK` -/
def raydiumClmm : Pubkey :=
  ⟨0xa5d5ca9e04cf5db590b714ba2fe32cb159133fc1c192b72257fd07d39cb0401e⟩

/-- `CPMMoo8L3F4NbTegBCKVNunggL7H1ZpdTHKxQB5qKP1C` -/
def raydiumCpSwap : Pubkey :=
  ⟨0xa92a5a8b4f295952842550aa93fd5b95b5ace6a8eb920c93942e43690c20ec73⟩

/-- `675kPX9MHTjS2zt1qfr1NYHuzeLXfQM9H24wFSUt1Mp8` -/
def raydiumV4 : Pubkey :=
  ⟨0x4bd949c43602c33f207790ed16a3524ca1b9975cf121a2a90cffec7df8b68acd⟩

/-- `SSwapUtytfBdBn1b9NUGG6foMVPtcWgpRU32HToDUZr` -/
def sarosAmm : Pubkey :=
  ⟨0x684da16a689c2c3896a8411715be9432eec1ca71a1ce2087286c67677cf65bd⟩

/-- `1qbkdrr3z4ryLA7pZykqxvxWPoeifcVKo6ZG9CfkvVE` -/
def sarosDlmm : Pubkey :=
  ⟨0x36f3862b0757e15b27242268fadf5d7523728765d25547944ad67e56555b51⟩

/-- `SCoRcH8c2dpjvcJD6FiPbCSQyQgu3PcUAWj2Xxx3mqn` -/
def scorch : Pubkey :=
  ⟨0x674dcedbf87a493a1407cfd9c93bd094a5f8bb4fc0c9e3cd634beb50583c35d⟩

/-- `SoLFiHG9TfgtdUXUjWAxi3LtvYuFyDLVhBWxdMZxyCe` -/
def solFi : Pubkey :=
  ⟨0x69be86ec9af65eb4a614fd99b8e92547da0145fab5e804adb594db3e73a271b⟩

/-- `SV2EYYJyRz2YhfXwXnhNAevDEui5Q6yrfyo13WtupPF` -/
def solFiV2 : Pubkey :=
  ⟨0x6873437b4fbc9f40437dd3ce63f9cfe8c2484035593a12781ba2a97be341696⟩

/-- `swapNyd8XiQwJ6ianp9snpu4brUqFxadzvHebnAXjJZ` -/
def stabbleStable : Pubkey :=
  ⟨0xd0cc1f8ef8deeaf90449e237f383c976e36bd53652d3679e0118d158b731e42⟩

/-- `swapFpHZwjELNnjvThjajtiVmkz3yPQEHjLtka2fwHW` -/
def stabbleWeightedSwap : Pubkey :=
  ⟨0xd0cc1f637510d78a412fc17cf986f99cec3e78884317596d2a84c14e2565535⟩

/-- `TessVdML9pBGgG9yGks7o4HewRaXVAMuoVj4x83GLQH` -/
def tesseraV : Pubkey :=
  ⟨0x6d3edc4e573adaff3e573898b545b1ee8d28d058ed94e88e0bcb332571bea0a⟩

/-- `T1TANpTeScyeqVzzgNViGDNrkQ6qHz9KrSBS4aNXvGT` -/
def titanExchangeRouter : Pubkey :=
  ⟨0x6a99c6e12e70ebb35185c144c4b906e18ffb00a47742f2a5e04110b6988c9d4⟩

/-- `ZERor4xhbUycZ6gb9ntrhqscUcZmAbQDjEAtCf4hbZY` -/
def zeroFi : Pubkey :=
  ⟨0x841c4c6ee376f17ca4b031a94f8b82a6ab2ae91ae19e08c74366a7975910897⟩

/-- The token program, `TokenkegQfeZyiNwAJbNbGKPFXCWuBvf9Ss623VQ5DA` -/
def splToken : Pubkey :=
  ⟨0x6ddf6e1d765a193d9cbe146ceeb79ac1cb485ed5f5b37913a8cf5857eff00a9⟩

/-- The token program with extensions, `TokenzQdBNbLqP5VEhdkAS6EPFLC1PHnBqCXEpPxuEb` -/
def splToken2022 : Pubkey :=
  ⟨0x6ddf6e1ee758fde18425dbce46ccddab61afc4d83b90d27febdf928d8a18bfc⟩

/-- The associated token account program, `ATokenGPvbdGVxr1b2hvZbsiqW5xWH25efTNsLJA8knL` -/
def associatedToken : Pubkey :=
  ⟨0x8c97258f4e2489f1bb3d1029148e0d830b5a1399daff1084048e7bd8dbe9f859⟩

/-- The compute budget program, `ComputeBudget111111111111111111111111111111` -/
def computeBudget : Pubkey :=
  ⟨0x306466fe5211732ffecadba72c39be7bc8ce5bbc5f7126b2c439b3a40000000⟩

/-- The system program, `11111111111111111111111111111111` -/
def systemProgram : Pubkey :=
  ⟨0x0⟩

/-- The vote program, `Vote111111111111111111111111111111111111111` -/
def vote : Pubkey :=
  ⟨0x761481d357474bb7c4d7624ebd3bdb3d8355e73d11043fc0da3538000000000⟩

/-- The mint of wrapped SOL, `So11111111111111111111111111111111111111112` -/
def nativeMint : Pubkey :=
  ⟨0x69b8857feab8184fb687f634618c035dac439dc1aeb3b5598a0f00000000001⟩

end Ids

/-- `DISALLOWED`: programs whose instructions are never parsed as swaps. -/
def disallowed : List Pubkey :=
  [Ids.splToken, Ids.splToken2022, Ids.associatedToken, Ids.computeBudget, Ids.systemProgram,
    Ids.vote]

namespace Program

/-- `PROGRAM_MAP`, in the order of the source. -/
def programMap : List (Pubkey × Program) :=
  [(Ids.aldrinV1, .aldrinV1), (Ids.aldrinV2, .aldrinV2), (Ids.alphaQ, .alphaQ),
    (Ids.aquifer, .aquifer), (Ids.axiomTrade, .axiomTrade),
    (Ids.binanceWalletProgram, .binanceWalletProgram), (Ids.bisonFi, .bisonFi),
    (Ids.bonkSwap, .bonkSwap), (Ids.byreal, .byreal), (Ids.deriverse, .deriverse),
    (Ids.dflowAgg, .dflowAgg), (Ids.drift, .drift), (Ids.goonFi, .goonFi),
    (Ids.goonFiV2, .goonFiV2), (Ids.gmgn, .gmgn), (Ids.gmx, .gmx), (Ids.gooseFx, .gooseFx),
    (Ids.heaven, .heaven), (Ids.humidiFi, .humidiFi), (Ids.jupV6, .jupV6),
    (Ids.launchLab, .launchLab), (Ids.lifinityV2, .lifinityV2), (Ids.mangoV4, .mangoV4),
    (Ids.manifest, .manifest), (Ids.mercurialStableSwap, .mercurialStableSwap),
    (Ids.meteoraPools, .meteoraPools), (Ids.meteoraDammV2, .meteoraDAMMV2),
    (Ids.meteoraDbc, .meteoraDBC), (Ids.meteoraDlmm, .meteoraDLMM), (Ids.obricV2, .obricV2),
    (Ids.okxRouter, .okxRouter), (Ids.okxDexRouter2, .okxDexRouter2), (Ids.orca, .orca),
    (Ids.pancakeSwap, .pancakeSwap), (Ids.phoenix, .phoenix), (Ids.pump, .pump),
    (Ids.pumpAmm, .pumpAmm), (Ids.raydiumClmm, .raydiumClmm),
    (Ids.raydiumCpSwap, .raydiumCpSwap), (Ids.raydiumV4, .raydiumV4), (Ids.sarosAmm, .sarosAmm),
    (Ids.sarosDlmm, .sarosDLMM), (Ids.scorch, .scorch), (Ids.solFi, .solFi),
    (Ids.solFiV2, .solFiV2), (Ids.stabbleStable, .stabbleStable),
    (Ids.stabbleWeightedSwap, .stabbleWeighted), (Ids.tesseraV, .tesseraV),
    (Ids.titanExchangeRouter, .titanExchangeRouter), (Ids.zeroFi, .zeroFi)]

/-- `From<&Pubkey>`: look the id up, or keep it. -/
def ofPubkey (key : Pubkey) : Program :=
  ((programMap.find? (fun entry => entry.1 = key)).map Prod.snd).getD (.unknown key)

/-- `From<&Program> for Pubkey`. -/
def pubkey : Program → Pubkey
  | .aldrinV1 => Ids.aldrinV1
  | .aldrinV2 => Ids.aldrinV2
  | .alphaQ => Ids.alphaQ
  | .aquifer => Ids.aquifer
  | .axiomTrade => Ids.axiomTrade
  | .binanceWalletProgram => Ids.binanceWalletProgram
  | .bisonFi => Ids.bisonFi
  | .bonkSwap => Ids.bonkSwap
  | .byreal => Ids.byreal
  | .deriverse => Ids.deriverse
  | .dflowAgg => Ids.dflowAgg
  | .drift => Ids.drift
  | .goonFi => Ids.goonFi
  | .goonFiV2 => Ids.goonFiV2
  | .gmgn => Ids.gmgn
  | .gmx => Ids.gmx
  | .gooseFx => Ids.gooseFx
  | .heaven => Ids.heaven
  | .humidiFi => Ids.humidiFi
  | .jupV6 => Ids.jupV6
  | .launchLab => Ids.launchLab
  | .lifinityV2 => Ids.lifinityV2
  | .mangoV4 => Ids.mangoV4
  | .manifest => Ids.manifest
  | .mercurialStableSwap => Ids.mercurialStableSwap
  | .meteoraDBC => Ids.meteoraDbc
  | .meteoraPools => Ids.meteoraPools
  | .meteoraDAMMV2 => Ids.meteoraDammV2
  | .meteoraDLMM => Ids.meteoraDlmm
  | .obricV2 => Ids.obricV2
  | .okxRouter => Ids.okxRouter
  | .okxDexRouter2 => Ids.okxDexRouter2
  | .orca => Ids.orca
  | .pancakeSwap => Ids.pancakeSwap
  | .phoenix => Ids.phoenix
  | .pump => Ids.pump
  | .pumpAmm => Ids.pumpAmm
  | .raydiumClmm => Ids.raydiumClmm
  | .raydiumCpSwap => Ids.raydiumCpSwap
  | .raydiumV4 => Ids.raydiumV4
  | .sarosAmm => Ids.sarosAmm
  | .sarosDLMM => Ids.sarosDlmm
  | .scorch => Ids.scorch
  | .solFi => Ids.solFi
  | .solFiV2 => Ids.solFiV2
  | .stabbleStable => Ids.stabbleStable
  | .stabbleWeighted => Ids.stabbleWeightedSwap
  | .tesseraV => Ids.tesseraV
  | .titanExchangeRouter => Ids.titanExchangeRouter
  | .zeroFi => Ids.zeroFi
  | .unknown key => key

/-- Every listed program has the id under which the table lists it, so a known
id survives the way to its program and back. -/
theorem programMap_pubkey : ∀ entry ∈ programMap, entry.2.pubkey = entry.1 := by decide

/-- Classifying an id never loses it. -/
theorem pubkey_ofPubkey (key : Pubkey) : (ofPubkey key).pubkey = key := by
  unfold ofPubkey
  cases found : programMap.find? (fun entry => entry.1 = key) with
  | none => rfl
  | some entry =>
    have listed : entry ∈ programMap := List.mem_of_find?_eq_some found
    have matched : entry.1 = key := by simpa using List.find?_some found
    simpa [matched] using programMap_pubkey entry listed

/-- Different ids are never classified alike. -/
theorem ofPubkey_injective (left right : Pubkey) (same : ofPubkey left = ofPubkey right) :
    left = right := by
  rw [← pubkey_ofPubkey left, same, pubkey_ofPubkey]

end Program

end Graced
